import Mathlib.Data.Fintype.EquivFin
import FabricFs.Lib.Runs
import FabricFs.Overlay.Edits
import FabricFs.Overlay.Samples

/-!
# Tombstones as a set of paths

`mark_tombstone` makes a file for a path, or a marker in the directory that is there because
something below the path was marked before. A file hides everything below it, the marker only
the path itself.

* `Encodes`: which objects stand for which marked paths, in terms of the paths that are marked
  and of those that ever were.
* `tombstones_closed_iff`: after any calls that succeed, the tombstones are the marked paths and
  all paths below them exactly if nothing was ever marked strictly below a marked path, no
  marked path can be taken for the marker of its parent, and there is an alias root.
* `tombstones_not_closed`: a path marked after one of its descendants hides no other path
  below it, a path whose last name is that of the marker hides its parent, and without an alias
  root a call that succeeds hides nothing.
-/

namespace FabricFs.Overlay

open Lib Lib.Prog Lib.Runs Server List

/-! ## What is on the disk -/

/-- The kind of the object that stands for a path in the tombstone directory. -/
def tombstoneKind (fs : HostFs) (p : Path) : Option Kind :=
  (fs.get ⟨.alias, tombstoneDir :: p⟩).map Node.kind

/-- Some path of the set lies strictly below. -/
def Below (E : Set Path) (p : Path) : Prop := ∃ e ∈ E, p <+: e ∧ p ≠ e

/-- The object that a path has may also be the marker of its parent. -/
def IsMarker (p : Path) : Prop := ∃ m, m ≠ [] ∧ p = m ++ [tombstoneMarker]

/-- The objects of the tombstone directory, for the paths that are marked and those that ever
were. Directories stay for good. A file under the marker's name may stand for the path or for
its parent, and either of the two can remove it. -/
structure Encodes (M E : Set Path) (kind : Path → Option Kind) : Prop where
  dir : ∀ p, p ≠ [] → (kind p = some .dir ↔ Below E p)
  file : ∀ p, p ≠ [] → ¬ IsMarker p → (kind p = some .file ↔ p ∈ M ∧ ¬ Below E p)
  marker : ∀ m, m ≠ [] → kind (m ++ [tombstoneMarker]) = some .file →
    m ++ [tombstoneMarker] ∈ M ∨ (m ∈ M ∧ Below E m)
  kinds : ∀ p k, kind p = some k → k = .dir ∨ k = .file
  top : ∀ k, kind [] = some k → k = .dir
  named : ∀ e ∈ E, e ≠ []
  sub : M ⊆ E

section Sets

variable {M E : Set Path} {kind kind' : Path → Option Kind} {p : Path}

variable {q : Path}

theorem below_insert : Below (insert p E) q ↔ Below E q ∨ (q <+: p ∧ q ≠ p) := by
  rw [or_comm]
  simp only [Below, Set.mem_insert_iff, exists_eq_or_imp]

theorem Below.trans (h : Below E p) (hq : q <+: p) : Below E q := by
  obtain ⟨e, he, hPrefix, hNe⟩ := h
  refine ⟨e, he, hq.trans hPrefix, ?_⟩
  rintro rfl
  exact hNe (hPrefix.eq_of_length (Nat.le_antisymm hPrefix.length_le hq.length_le))

theorem below_parent {m : Path} {n : Name} (h : m ++ [n] ∈ E) : Below E m :=
  ⟨_, h, prefix_append m [n], by simp⟩

theorem Encodes.not_below_of_file (h : Encodes M E kind) (hp : p ≠ [])
    (hFile : kind p = some .file) : ¬ Below E p := fun hBelow => by
  rw [(h.dir p hp).2 hBelow] at hFile
  cases hFile

theorem Encodes.not_below_of_none (h : Encodes M E kind) (hp : p ≠ [])
    (hNone : kind p = none) : ¬ Below E p := fun hBelow => by
  rw [(h.dir p hp).2 hBelow] at hNone
  cases hNone

theorem Encodes.kind_cases (h : Encodes M E kind) (p : Path) :
    kind p = none ∨ kind p = some .dir ∨ kind p = some .file := by
  cases hKind : kind p with
  | none => exact .inl rfl
  | some k => exact .inr ((h.kinds p k hKind).imp (congrArg some) (congrArg some))

/-- Above a file something was marked, the file's path or its parent. -/
theorem Encodes.below_above_file (h : Encodes M E kind) (hp : p ≠ []) (hFile : kind p = some .file)
    (hq : q <+: p) (hNe : q ≠ p) : Below E q := by
  by_cases hMarker : IsMarker p
  · obtain ⟨m, hm, rfl⟩ := hMarker
    have hBelow : Below E m := by
      rcases h.marker m hm hFile with hMem | hMem
      · exact below_parent (h.sub hMem)
      · exact hMem.2
    exact hBelow.trans ((prefix_concat_iff.mp hq).resolve_left hNe)
  · exact ⟨p, h.sub ((h.file p hp hMarker).1 hFile).1, hq, hNe⟩

/-! ## The calls on the sets -/

/-- A path without an object gets a file, and the directories above it. -/
theorem Encodes.mark_new (h : Encodes M E kind) (hp : p ≠ []) (hNone : kind p = none)
    (hAt : kind' p = some .file) (hAbove : ∀ q, q <+: p → q ≠ p → kind' q = some .dir)
    (hOther : ∀ q, ¬ q <+: p → kind' q = kind q) :
    Encodes (insert p M) (insert p E) kind' := by
  have hNotBelow := h.not_below_of_none hp hNone
  refine ⟨fun q hq => ?_, fun q hq hMarker => ?_, fun m hm hFile => ?_, fun q k hk => ?_,
    fun k hk => ?_, ?_, Set.insert_subset_insert h.sub⟩
  · rw [below_insert]
    by_cases hPrefix : q <+: p
    · by_cases hEq : q = p
      · subst hEq
        simp [hAt, hNotBelow]
      · simp [hAbove q hPrefix hEq, hPrefix, hEq]
    · rw [hOther q hPrefix, h.dir q hq]
      simp [hPrefix]
  · rw [below_insert]
    by_cases hPrefix : q <+: p
    · by_cases hEq : q = p
      · subst hEq
        simp [hAt, hNotBelow]
      · simp [hAbove q hPrefix hEq, hPrefix, hEq]
    · have hEq : q ≠ p := fun hEq => hPrefix (hEq ▸ prefix_refl p)
      rw [hOther q hPrefix, h.file q hq hMarker]
      simp [hPrefix, hEq]
  · by_cases hPrefix : m ++ [tombstoneMarker] <+: p
    · by_cases hEq : m ++ [tombstoneMarker] = p
      · exact .inl (.inl hEq)
      · rw [hAbove _ hPrefix hEq] at hFile
        cases hFile
    · rw [hOther _ hPrefix] at hFile
      exact (h.marker m hm hFile).imp .inr fun hMem =>
        ⟨.inr hMem.1, below_insert.2 (.inl hMem.2)⟩
  · by_cases hPrefix : q <+: p
    · by_cases hEq : q = p
      · subst hEq
        exact .inr (Option.some.inj (hk.symm.trans hAt))
      · exact .inl (Option.some.inj (hk.symm.trans (hAbove q hPrefix hEq)))
    · exact h.kinds q k (hOther q hPrefix ▸ hk)
  · exact Option.some.inj (hk.symm.trans (hAbove [] (List.nil_prefix) (Ne.symm hp)))
  · rintro e (rfl | he)
    · exact hp
    · exact h.named e he

theorem Encodes.mark_dir (h : Encodes M E kind) (hp : p ≠ []) (hDir : kind p = some .dir)
    (hFree : kind (p ++ [tombstoneMarker]) ≠ some .dir)
    (hAt : kind' (p ++ [tombstoneMarker]) = some .file)
    (hOther : ∀ q, q ≠ p ++ [tombstoneMarker] → kind' q = kind q) :
    Encodes (insert p M) (insert p E) kind' := by
  have hBelow : Below E p := (h.dir p hp).1 hDir
  have hSame : ∀ q, Below (insert p E) q ↔ Below E q := fun q =>
    below_insert.trans (or_iff_left_of_imp fun hq => hBelow.trans hq.1)
  refine ⟨fun q hq => ?_, fun q hq hMarker => ?_, fun m hm hFile => ?_, fun q k hk => ?_,
    fun k hk => ?_, ?_, Set.insert_subset_insert h.sub⟩
  · rw [hSame]
    by_cases hEq : q = p ++ [tombstoneMarker]
    · subst hEq
      rw [hAt, ← h.dir _ hq]
      simp [hFree]
    · rw [hOther q hEq, h.dir q hq]
  · rw [hSame, hOther q fun hEq => hMarker ⟨p, hp, hEq⟩, h.file q hq hMarker]
    refine ⟨fun hMem => ⟨.inr hMem.1, hMem.2⟩, fun hMem => ⟨?_, hMem.2⟩⟩
    exact hMem.1.resolve_left fun hEq => hMem.2 (hEq ▸ hBelow)
  · rw [hSame]
    by_cases hEq : m = p
    · exact .inr ⟨.inl hEq, hEq ▸ hBelow⟩
    · rw [hOther _ fun hq => hEq (append_cancel_right hq)] at hFile
      exact (h.marker m hm hFile).imp .inr fun hMem => ⟨.inr hMem.1, hMem.2⟩
  · by_cases hEq : q = p ++ [tombstoneMarker]
    · subst hEq
      exact .inr (Option.some.inj (hk.symm.trans hAt))
    · exact h.kinds q k (hOther q hEq ▸ hk)
  · exact h.top k (hOther [] (by simp) ▸ hk)
  · rintro e (rfl | he)
    · exact hp
    · exact h.named e he

/-- A file that is there stays, whichever path it stood for. -/
theorem Encodes.mark_file (h : Encodes M E kind) (hp : p ≠ []) (hFile : kind p = some .file) :
    Encodes (insert p M) (insert p E) kind := by
  have hSame : ∀ q, Below (insert p E) q ↔ Below E q := fun q =>
    below_insert.trans (or_iff_left_of_imp fun hq => h.below_above_file hp hFile hq.1 hq.2)
  refine ⟨fun q hq => ?_, fun q hq hMarker => ?_, fun m hm hKind => ?_, h.kinds, h.top, ?_,
    Set.insert_subset_insert h.sub⟩
  · rw [hSame, h.dir q hq]
  · rw [hSame]
    by_cases hEq : q = p
    · subst hEq
      simp [hFile, h.not_below_of_file hq hFile]
    · rw [h.file q hq hMarker]
      simp [hEq]
  · rw [hSame]
    exact (h.marker m hm hKind).imp .inr fun hMem => ⟨.inr hMem.1, hMem.2⟩
  · rintro e (rfl | he)
    · exact hp
    · exact h.named e he

theorem Encodes.clear_dir (h : Encodes M E kind) (hp : p ≠ []) (hDir : kind p = some .dir)
    (hFree : kind (p ++ [tombstoneMarker]) ≠ some .dir)
    (hAt : kind' (p ++ [tombstoneMarker]) = none)
    (hOther : ∀ q, q ≠ p ++ [tombstoneMarker] → kind' q = kind q) :
    Encodes (M \ {p}) E kind' := by
  have hBelow : Below E p := (h.dir p hp).1 hDir
  refine ⟨fun q hq => ?_, fun q hq hMarker => ?_, fun m hm hFile => ?_, fun q k hk => ?_,
    fun k hk => ?_, h.named, Set.sdiff_subset.trans h.sub⟩
  · by_cases hEq : q = p ++ [tombstoneMarker]
    · subst hEq
      rw [hAt, ← h.dir _ hq]
      simp [hFree]
    · rw [hOther q hEq, h.dir q hq]
  · rw [hOther q fun hEq => hMarker ⟨p, hp, hEq⟩, h.file q hq hMarker]
    refine ⟨fun hMem => ⟨⟨hMem.1, ?_⟩, hMem.2⟩, fun hMem => ⟨hMem.1.1, hMem.2⟩⟩
    exact fun hEq => hMem.2 (hEq ▸ hBelow)
  · have hEq : m ≠ p := by
      rintro rfl
      rw [hAt] at hFile
      cases hFile
    rw [hOther _ fun hq => hEq (append_cancel_right hq)] at hFile
    refine (h.marker m hm hFile).imp (fun hMem => ⟨hMem, ?_⟩) fun hMem => ⟨⟨hMem.1, hEq⟩, hMem.2⟩
    -- the path itself is a directory, so it is not this file
    rintro rfl
    rw [hDir] at hFile
    cases hFile
  · by_cases hEq : q = p ++ [tombstoneMarker]
    · subst hEq
      rw [hAt] at hk
      cases hk
    · exact h.kinds q k (hOther q hEq ▸ hk)
  · exact h.top k (hOther [] (by simp) ▸ hk)

theorem Encodes.clear_file (h : Encodes M E kind) (hp : p ≠ []) (hFile : kind p = some .file)
    (hAt : kind' p = none) (hOther : ∀ q, q ≠ p → kind' q = kind q) :
    Encodes (M \ {p}) E kind' := by
  have hNot := h.not_below_of_file hp hFile
  refine ⟨fun q hq => ?_, fun q hq hMarker => ?_, fun m hm hKind => ?_, fun q k hk => ?_,
    fun k hk => ?_, h.named, Set.sdiff_subset.trans h.sub⟩
  · by_cases hEq : q = p
    · subst hEq
      simp [hAt, hNot]
    · rw [hOther q hEq, h.dir q hq]
  · by_cases hEq : q = p
    · subst hEq
      simp [hAt]
    · rw [hOther q hEq, h.file q hq hMarker]
      simp [hEq]
  · have hEq : m ++ [tombstoneMarker] ≠ p := by
      rintro rfl
      rw [hAt] at hKind
      cases hKind
    rw [hOther _ hEq] at hKind
    exact (h.marker m hm hKind).imp (fun hMem => ⟨hMem, hEq⟩) fun hMem =>
      ⟨⟨hMem.1, fun hmp => hNot (hmp ▸ hMem.2)⟩, hMem.2⟩
  · by_cases hEq : q = p
    · subst hEq
      rw [hAt] at hk
      cases hk
    · exact h.kinds q k (hOther q hEq ▸ hk)
  · exact h.top k (hOther [] (Ne.symm hp) ▸ hk)

/-- A path without an object is not marked, unless its parent's call removed the file. -/
theorem Encodes.clear_none (h : Encodes M E kind) (hp : p ≠ []) (hNone : kind p = none) :
    Encodes (M \ {p}) E kind := by
  have hNot := h.not_below_of_none hp hNone
  refine ⟨h.dir, fun q hq hMarker => ?_, fun m hm hKind => ?_, h.kinds, h.top, h.named,
    Set.sdiff_subset.trans h.sub⟩
  · by_cases hEq : q = p
    · subst hEq
      simp [hNone]
    · rw [h.file q hq hMarker]
      simp [hEq]
  · refine (h.marker m hm hKind).imp (fun hMem => ⟨hMem, ?_⟩) fun hMem =>
      ⟨⟨hMem.1, fun hmp => hNot (hmp ▸ hMem.2)⟩, hMem.2⟩
    rintro rfl
    rw [hNone] at hKind
    cases hKind

end Sets

/-! ## The programs -/

section Programs

variable {env : Env} {M E : Set Path} {p : Path}

variable {fs : HostFs} {node : Node} {q : Path}

theorem tombstoneKind_entered {fs' : HostFs}
    (h : HostFs.Entered fs ⟨.alias, tombstoneDir :: q⟩ node fs') (r : Path) :
    tombstoneKind fs' r = if r = q then some node.kind else tombstoneKind fs r := by
  unfold tombstoneKind
  rw [h.get_eq]
  by_cases hEq : r = q
  · subst hEq
    simp
  · simp [hEq]

theorem tombstoneKind_removed {fs' : HostFs} (h : HostFs.Removed fs ⟨.alias, tombstoneDir :: q⟩ fs')
    (r : Path) :
    tombstoneKind fs' r = if r = q then none else tombstoneKind fs r := by
  unfold tombstoneKind
  rw [h.get_eq]
  by_cases hEq : r = q
  · subst hEq
    simp
  · simp [hEq]

/-- The invariant of the runs. -/
def Tombs (M E : Set Path) (w : World) : Prop := Encodes M E (tombstoneKind w.fs)

theorem untimed_tombs : Untimed (Tombs M E) := fun _ _ h => h

theorem tombstonePath_of_ne (hAlias : env.layout.aliasRoot = true) (hp : p ≠ []) :
    tombstonePath env p = some ⟨.alias, tombstoneDir :: p⟩ := by
  simp [tombstonePath, hAlias, hp]

/-- The directories above a path are being made. -/
def Growing (M E : Set Path) (p : Path) (w : World) : Prop :=
  ∃ kind, Encodes M E kind ∧ kind p = none ∧ ∀ q, tombstoneKind w.fs q = kind q ∨
    kind q = none ∧ q <+: p ∧ q ≠ p ∧ tombstoneKind w.fs q = some .dir

theorem keeps_growing (hp : p ≠ []) : Keeps env (Growing M E p)
    (createDirAllWithRecordedDirs ⟨.alias, (tombstoneDir :: p).dropLast⟩) := by
  refine keeps_createDirAllWithRecordedDirs fun r hr => ?_
  refine keeps_createDir (fun _ _ h => h) fun w node fs' hw hk hm => ?_
  obtain ⟨q, rfl⟩ : ∃ q, r = tombstoneDir :: q := by
    cases r with
    | nil => exact absurd rfl hm.entered.ne_root
    | cons n q =>
      rw [dropLast_cons_of_ne_nil hp, cons_prefix_cons] at hr
      exact ⟨q, by rw [hr.1]⟩
  have hq : q <+: p.dropLast := by
    rw [dropLast_cons_of_ne_nil hp, cons_prefix_cons] at hr
    exact hr.2
  have hNe : q ≠ p := by
    rintro rfl
    have hLength := hq.length_le
    rw [length_dropLast] at hLength
    have := length_pos_of_ne_nil hp
    omega
  obtain ⟨kind, hEnc, hNone, hKind⟩ := hw
  have hAbsent : tombstoneKind w.fs q = none := by
    simp [tombstoneKind, hm.entered.absent]
  refine ⟨kind, hEnc, hNone, fun r => ?_⟩
  rw [tombstoneKind_entered hm.entered r]
  by_cases hEq : r = q
  · subst hEq
    rw [if_pos rfl, hk]
    rcases hKind r with h | h
    · exact .inr ⟨h.symm.trans hAbsent, hq.trans (List.dropLast_prefix p), hNe, rfl⟩
    · rw [hAbsent] at h
      cases h.2.2.2
  · rw [if_neg hEq]
    exact hKind r

theorem tombstoneKind_above (h : (fs.tree .alias).isBranch (tombstoneDir :: p).dropLast = true)
    (hq : q <+: p) (hNe : q ≠ p) : tombstoneKind fs q = some .dir := by
  obtain ⟨rest, rfl⟩ := hq
  have hRest : rest ≠ [] := by
    rintro rfl
    exact hNe (append_nil q).symm
  have hDrop : (tombstoneDir :: (q ++ rest)).dropLast = (tombstoneDir :: q) ++ rest.dropLast := by
    rw [← cons_append, dropLast_append_of_ne_nil hRest]
  rw [hDrop] at h
  have hBranch : (fs.tree .alias).isBranch (tombstoneDir :: q) = true := by
    by_cases hNil : rest.dropLast = []
    · rwa [hNil, append_nil] at h
    · obtain ⟨v, hv, -⟩ := Tree.isBranch_iff.mp h
      exact Tree.isBranch_of_append hNil (by rw [hv]; rfl)
  obtain ⟨v, hv, hDir⟩ := Tree.isBranch_iff.mp hBranch
  have hGet : fs.get ⟨.alias, tombstoneDir :: q⟩ = some v := hv
  simpa [tombstoneKind, hGet, Node.isDir] using hDir

/-- A file under the tombstones is found by the tests that follow links. -/
theorem followNode_tombstone (env : Env) {w : World} (hw : Tombs M E w)
    (hNode : w.fs.get ⟨.alias, tombstoneDir :: q⟩ = some node) :
    followNode env w.fs ⟨.alias, tombstoneDir :: q⟩ = .ok node := by
  refine followNode_of_not_symlink hNode fun hLink => ?_
  rcases hw.kinds q .symlink (by simp [tombstoneKind, hNode, hLink]) with h | h <;> cases h

theorem kind_of_not_dir {w : World} (hw : Tombs M E w)
    (hNode : w.fs.get ⟨.alias, tombstoneDir :: q⟩ = some node) (hNotDir : node.isDir = false) :
    tombstoneKind w.fs q = some .file := by
  have hKind : tombstoneKind w.fs q = some node.kind := by simp [tombstoneKind, hNode]
  rcases hw.kinds q _ hKind with h | h
  · simp [Node.isDir, h] at hNotDir
  · exact h ▸ hKind

theorem triple_markTombstone (hAlias : env.layout.aliasRoot = true) (hp : p ≠ []) :
    Triple env (Tombs M E) (markTombstone p) (fun _ => Tombs (insert p M) (insert p E))
      (fun _ => True) := by
  refine triple_ask ?_
  rw [tombstonePath_of_ne hAlias hp]
  refine triple_bind ((triple_lstat untimed_tombs _).any) fun found => ?_
  cases found with
  | none =>
    refine Triple.pre (P := Growing M E p) (triple_seq ((keeps_growing hp).weaken
      fun _ _ => trivial) <| triple_seq ((triple_createFile
        (I := Growing M E p) (Q := fun _ => Tombs (insert p M) (insert p E)) (fun _ _ h => h)
        ?_ ?_).any)
        <| triple_done) ?_
    · rintro w node fs' ⟨kind, hEnc, hNone, hKind⟩ hFile ⟨hEntered, -, -⟩
      refine hEnc.mark_new hp hNone ?_ ?_ ?_
      · simp [tombstoneKind_entered hEntered, hFile]
      · intro q hq hNe
        rw [tombstoneKind_entered hEntered, if_neg hNe]
        exact tombstoneKind_above hEntered.parent hq hNe
      · intro q hq
        have hNe : q ≠ p := fun h => hq (h ▸ prefix_refl p)
        rw [tombstoneKind_entered hEntered, if_neg hNe]
        exact (hKind q).resolve_right fun h => hq h.2.1
    · -- the path itself is not above itself, so it is still missing
      rintro w node ⟨kind, hEnc, hNone, hKind⟩ hSome - -
      rcases hKind p with h | h
      · rw [hNone] at h
        obtain ⟨found, hFound⟩ := Option.isSome_iff_exists.mp hSome
        simp [tombstoneKind, hFound] at h
      · exact absurd rfl h.2.2.1
    · rintro w ⟨hw, hNone, -⟩
      exact ⟨_, hw, by simp [tombstoneKind, hNone rfl], fun q => .inl rfl⟩
  | some info =>
    refine triple_seq (triple_conseq (P := fun w => Tombs M E w ∧
      tombstoneKind w.fs p = some info.kind) (triple_createFile
        (Q := fun _ => Tombs (insert p M) (insert p E)) (fun _ _ h => h) ?_ ?_) ?_
        (fun _ _ h => h) (fun _ _ => trivial)) <| triple_done
    · rintro w node fs' ⟨hw, hKind⟩ hFile ⟨hEntered, -, -⟩
      by_cases hDir : info.kind = .dir
      · rw [if_pos hDir] at hEntered
        have hEntered : HostFs.Entered w.fs
            ⟨.alias, tombstoneDir :: (p ++ [tombstoneMarker])⟩ node fs' := hEntered
        refine Encodes.mark_dir hw hp (hDir ▸ hKind) ?_ ?_ fun q hq => ?_
        · simp [tombstoneKind, hEntered.absent]
        · simp [tombstoneKind_entered hEntered, hFile]
        · simp [tombstoneKind_entered hEntered, hq]
      · rw [if_neg hDir] at hEntered
        simp [tombstoneKind, hEntered.absent] at hKind
    · rintro w old ⟨hw, hKind⟩ hSome hFollow hNotDir
      by_cases hDir : info.kind = .dir
      · rw [if_pos hDir] at hSome hFollow
        obtain ⟨node, hNode⟩ := Option.isSome_iff_exists.mp hSome
        have hNode : w.fs.get ⟨.alias, tombstoneDir :: (p ++ [tombstoneMarker])⟩ = some node :=
          hNode
        -- what can be opened under the marker's name is a file
        have hMarker := kind_of_not_dir hw hNode (by
          rw [← Except.ok.inj (hFollow.symm.trans (followNode_tombstone env hw hNode))]
          exact hNotDir)
        exact Encodes.mark_dir hw hp (hDir ▸ hKind) (by simp [hMarker]) hMarker fun q hq => rfl
      · refine Encodes.mark_file hw hp ?_
        rcases hw.kinds _ _ hKind with h | h
        · exact absurd h hDir
        · exact h ▸ hKind
    · rintro w ⟨hw, -, hFound⟩
      obtain ⟨node, hNode, rfl⟩ := hFound info rfl
      exact ⟨hw, by simp [tombstoneKind, hNode, HostFs.metaOf]⟩

theorem triple_clearTombstone (hAlias : env.layout.aliasRoot = true) (hp : p ≠ []) :
    Triple env (Tombs M E) (clearTombstone p) (fun _ => Tombs (M \ {p}) E) (fun _ => True) := by
  refine triple_ask ?_
  rw [tombstonePath_of_ne hAlias hp]
  refine triple_bind ((triple_lstat untimed_tombs _).any) fun found => ?_
  cases found with
  | none =>
    rintro w ⟨hw, hNone, -⟩
    exact Encodes.clear_none hw hp (by simp [tombstoneKind, hNone rfl])
  | some info =>
    refine Triple.pre (P := fun w => Tombs M E w ∧ tombstoneKind w.fs p = some info.kind)
      (triple_ite (fun hDir => triple_bind (triple_probe _) fun marked => ?_) fun hDir => ?_) ?_
    · cases marked with
      | true =>
        refine triple_conseq (triple_update (I := fun w => Tombs M E w ∧
          tombstoneKind w.fs p = some info.kind) (Q := fun _ => Tombs (M \ {p}) E)
          (fun _ _ h => h) ?_) (fun _ h => h.1) (fun _ _ h => h) (fun _ _ => trivial)
        rintro w ⟨⟩ fs' ⟨hw, hKind⟩ hf
        obtain ⟨fs'', hRemove, hEq⟩ := map_eq_ok.mp hf
        cases hEq
        obtain ⟨node, hNode, hNotDir, hRemoved⟩ := HostFs.removeFile_ok hRemove
        have hNode : w.fs.get ⟨.alias, tombstoneDir :: (p ++ [tombstoneMarker])⟩ = some node :=
          hNode
        have hRemoved : HostFs.Removed w.fs
            ⟨.alias, tombstoneDir :: (p ++ [tombstoneMarker])⟩ fs' := hRemoved
        have hMarker := kind_of_not_dir hw hNode hNotDir
        refine Encodes.clear_dir hw hp (hDir ▸ hKind) (by simp [hMarker]) ?_ fun q hq => ?_
        · simp [tombstoneKind_removed hRemoved]
        · simp [tombstoneKind_removed hRemoved, hq]
      | false =>
        rintro w ⟨⟨hw, hKind⟩, hMarked⟩
        have hNone : tombstoneKind w.fs (p ++ [tombstoneMarker]) = none := by
          cases hNode : w.fs.get ⟨.alias, tombstoneDir :: (p ++ [tombstoneMarker])⟩ with
          | none => simp [tombstoneKind, hNode]
          | some node =>
            have hFollow := followNode_tombstone env hw hNode
            simp [existsAt, childLoc, hFollow] at hMarked
        exact Encodes.clear_dir hw hp (hDir ▸ hKind) (by simp [hNone]) hNone fun q hq => rfl
    · refine (triple_update (I := fun w => Tombs M E w ∧
        tombstoneKind w.fs p = some info.kind) (Q := fun _ => Tombs (M \ {p}) E)
        (fun _ _ h => h) ?_).any
      rintro w ⟨⟩ fs' ⟨hw, hKind⟩ hf
      obtain ⟨fs'', hRemove, hEq⟩ := map_eq_ok.mp hf
      cases hEq
      obtain ⟨node, hNode, hNotDir, hRemoved⟩ := HostFs.removeFile_ok hRemove
      refine Encodes.clear_file hw hp (kind_of_not_dir hw hNode hNotDir) ?_ fun q hq => ?_
      · simp [tombstoneKind_removed hRemoved]
      · simp [tombstoneKind_removed hRemoved, hq]
    · rintro w ⟨hw, -, hFound⟩
      obtain ⟨node, hNode, rfl⟩ := hFound info rfl
      exact ⟨hw, by simp [tombstoneKind, hNode, HostFs.metaOf]⟩

end Programs

/-! ## What is hidden -/

section Hidden

variable {env : Env} {M E : Set Path} {fs : HostFs}

/-- Below a file everything is hidden, at a directory the marker decides. -/
theorem isTombstoned_iff (hAlias : env.layout.aliasRoot = true)
    (h : Encodes M E (tombstoneKind fs)) (q : Path) :
    isTombstoned env fs q = true ↔ q ≠ [] ∧
      ((∃ p, p ≠ [] ∧ p <+: q ∧ tombstoneKind fs p = some .file) ∨
        (Below E q ∧ tombstoneKind fs (q ++ [tombstoneMarker]) = some .file)) := by
  by_cases hq : q = []
  · subst hq
    simp [isTombstoned, tombstonePath]
  unfold isTombstoned
  rw [tombstonePath_of_ne hAlias hq]
  simp only [HostFs.lookup]
  cases hNode : fs.get ⟨.alias, tombstoneDir :: q⟩ with
  | some node =>
    have hKind : tombstoneKind fs q = some node.kind := by simp [tombstoneKind, hNode]
    -- an object has only directories above it
    have hPrefix : ∀ p, p <+: q → p ≠ q → tombstoneKind fs p = some .dir := by
      rintro p ⟨rest, rfl⟩ hNe
      have hRest : rest ≠ [] := by
        rintro rfl
        exact hNe (append_nil p).symm
      have hSome : ((fs.tree .alias).get ((tombstoneDir :: p) ++ rest)).isSome = true := by
        rw [cons_append, show (fs.tree .alias).get (tombstoneDir :: (p ++ rest)) = _ from
          hNode]
        rfl
      obtain ⟨v, hv, hDir⟩ := Tree.isBranch_iff.mp (Tree.isBranch_of_append hRest hSome)
      have hGet : fs.get ⟨.alias, tombstoneDir :: p⟩ = some v := hv
      simpa [tombstoneKind, hGet, Node.isDir] using hDir
    rcases h.kinds q _ hKind with hk | hk
    · -- a directory
      have hBelow : Below E q := (h.dir q hq).1 (hk ▸ hKind)
      have hMarker : isFileAt env fs (childLoc ⟨.alias, tombstoneDir :: q⟩ tombstoneMarker) =
          true ↔ tombstoneKind fs (q ++ [tombstoneMarker]) = some .file := by
        cases hChild : fs.get ⟨.alias, tombstoneDir :: (q ++ [tombstoneMarker])⟩ with
        | none =>
          have hFollow : followNode env fs ⟨.alias, tombstoneDir :: (q ++ [tombstoneMarker])⟩ =
              .error (if (fs.tree .alias).blocked (tombstoneDir :: (q ++ [tombstoneMarker]))
                then .enotdir else .enoent) := by
            simp [followNode, follow, followAux, HostFs.lookup, hChild]
          simp [isFileAt, childLoc, tombstoneKind, hChild, hFollow]
        | some child =>
          have hLink : child.kind ≠ .symlink := fun hLink => by
            rcases h.kinds (q ++ [tombstoneMarker]) .symlink
              (by simp [tombstoneKind, hChild, hLink]) with h | h <;> cases h
          simp [isFileAt, childLoc, tombstoneKind, hChild, followNode_of_not_symlink hChild hLink]
      have hNoFile : ¬ ∃ p, p ≠ [] ∧ p <+: q ∧ tombstoneKind fs p = some .file := by
        rintro ⟨p, -, hp, hFile⟩
        by_cases hEq : p = q
        · rw [hEq, hKind, hk] at hFile
          cases hFile
        · rw [hPrefix p hp hEq] at hFile
          cases hFile
      simp only [Node.isDir, hk, beq_self_eq_true, if_true, hMarker, ne_eq, hq,
        not_false_eq_true, true_and, hNoFile, false_or, hBelow]
    · -- a file
      have hFile : tombstoneKind fs q = some .file := hk ▸ hKind
      simp only [Node.isDir, hk, show (Kind.file == Kind.dir) = false from rfl, if_false,
        Bool.false_eq_true, true_iff]
      exact ⟨hq, .inl ⟨q, hq, prefix_refl q, hFile⟩⟩
  | none =>
    have hNot : ¬ (Below E q ∧ tombstoneKind fs (q ++ [tombstoneMarker]) = some .file) :=
        fun hBoth => by
      have := (h.dir q hq).2 hBoth.1
      simp [tombstoneKind, hNode] at this
    have hBlocked : (fs.tree .alias).blocked (tombstoneDir :: q) = true ↔
        ∃ p, p ≠ [] ∧ p <+: q ∧ tombstoneKind fs p = some .file := by
      rw [Tree.blocked_iff]
      constructor
      · rintro ⟨r, rest, v, hEq, hRest, hv, hDir⟩
        cases r with
        | nil =>
          obtain ⟨root, hRoot, hBranch⟩ := (fs.tree .alias).root_branch
          rw [hRoot] at hv
          cases hv
          rw [hBranch] at hDir
          cases hDir
        | cons n p =>
          rw [cons_append, cons.injEq] at hEq
          obtain ⟨rfl, rfl⟩ := hEq
          have hGet : fs.get ⟨.alias, tombstoneDir :: p⟩ = some v := hv
          have hKind : tombstoneKind fs p = some v.kind := by simp [tombstoneKind, hGet]
          have hNotDir : v.kind ≠ .dir := fun hk => by simp [Node.isDir, hk] at hDir
          have hNe : p ≠ [] := by
            rintro rfl
            exact hNotDir (h.top _ hKind)
          refine ⟨p, hNe, prefix_append _ _, ?_⟩
          rcases h.kinds p _ hKind with hk | hk
          · exact absurd hk hNotDir
          · exact hk ▸ hKind
      · rintro ⟨p, hp, ⟨rest, rfl⟩, hFile⟩
        obtain ⟨v, hv, hk⟩ := Option.map_eq_some_iff.mp hFile
        refine ⟨tombstoneDir :: p, rest, v, rfl, ?_, hv, by simp [Node.isDir, hk]⟩
        rintro rfl
        rw [append_nil] at hNode
        rw [hNode] at hv
        cases hv
    simp only [ne_eq, hq, not_false_eq_true, true_and, hNot, or_false, ← hBlocked]
    cases (fs.tree .alias).blocked (tombstoneDir :: q) <;> simp

theorem exists_free_name (fs : HostFs) (p : Path) : ∃ n, tombstoneKind fs (p ++ [n]) = none := by
  obtain ⟨n, hn⟩ := Infinite.exists_notMem_finset
    ((fs.tree .alias).childNames (tombstoneDir :: p)).toFinset
  simp only [mem_toFinset, Tree.mem_childNames, Option.not_isSome_iff_eq_none] at hn
  refine ⟨n, ?_⟩
  have hGet : fs.get ⟨.alias, tombstoneDir :: (p ++ [n])⟩ = none := hn
  simp [tombstoneKind, hGet]

/-- Below a directory a path without an object is not hidden. -/
theorem not_isTombstoned_free (hAlias : env.layout.aliasRoot = true)
    (h : Encodes M E (tombstoneKind fs)) {p : Path} {n : Name} (hBelow : Below E p)
    (hFree : tombstoneKind fs (p ++ [n]) = none) : ¬ isTombstoned env fs (p ++ [n]) = true := by
  rw [isTombstoned_iff hAlias h]
  rintro ⟨-, ⟨r, hr, hPrefix, hFile⟩ | ⟨hBelow', -⟩⟩
  · rcases prefix_concat_iff.mp hPrefix with rfl | hPrefix
    · rw [hFree] at hFile
      cases hFile
    · exact h.not_below_of_file hr hFile (hBelow.trans hPrefix)
  · exact h.not_below_of_none (by simp) hFree hBelow'

/-- The tombstones are the marked paths and what is below them exactly if no marked path is a
directory and none can be taken for a marker. -/
theorem closed_iff (hAlias : env.layout.aliasRoot = true) (h : Encodes M E (tombstoneKind fs)) :
    (∀ q, isTombstoned env fs q = true ↔ ∃ p ∈ M, p <+: q) ↔
      (∀ p ∈ M, ¬ Below E p) ∧ ∀ p ∈ M, ¬ IsMarker p := by
  constructor
  · intro hClosed
    have hFiles : ∀ p ∈ M, ¬ Below E p := by
      intro p hp hBelow
      obtain ⟨n, hFree⟩ := exists_free_name fs p
      exact not_isTombstoned_free hAlias h hBelow hFree
        ((hClosed (p ++ [n])).2 ⟨p, hp, prefix_append p [n]⟩)
    refine ⟨hFiles, ?_⟩
    rintro _ hMem ⟨m, hm, rfl⟩
    have hParent : Below E m := below_parent (h.sub hMem)
    -- hidden, the path has a file, and this file hides the parent as its marker
    have hHidden := (hClosed _).2 ⟨_, hMem, prefix_refl _⟩
    have hFile : tombstoneKind fs (m ++ [tombstoneMarker]) = some .file := by
      rcases h.kind_cases (m ++ [tombstoneMarker]) with hNone | hDir | hFile
      · exact absurd hHidden (not_isTombstoned_free hAlias h hParent hNone)
      · exact absurd ((h.dir _ (by simp)).1 hDir) (hFiles _ hMem)
      · exact hFile
    obtain ⟨p, hp, hPrefix⟩ := (hClosed m).1
      ((isTombstoned_iff hAlias h m).2 ⟨hm, .inr ⟨hParent, hFile⟩⟩)
    exact hFiles p hp (hParent.trans hPrefix)
  · rintro ⟨hFiles, hNames⟩ q
    have hNoMarker : ∀ m, m ≠ [] → tombstoneKind fs (m ++ [tombstoneMarker]) ≠ some .file := by
      intro m hm hFile
      rcases h.marker m hm hFile with hMem | ⟨hMem, hBelow⟩
      · exact hNames _ hMem ⟨m, hm, rfl⟩
      · exact hFiles m hMem hBelow
    rw [isTombstoned_iff hAlias h]
    constructor
    · rintro ⟨hq, ⟨p, hp, hPrefix, hFile⟩ | ⟨-, hFile⟩⟩
      · have hMarker : ¬ IsMarker p := by
          rintro ⟨m, hm, rfl⟩
          exact hNoMarker m hm hFile
        exact ⟨p, ((h.file p hp hMarker).1 hFile).1, hPrefix⟩
      · exact absurd hFile (hNoMarker q hq)
    · rintro ⟨p, hMem, hPrefix⟩
      have hp := h.named p (h.sub hMem)
      refine ⟨?_, .inl ⟨p, hp, hPrefix, (h.file p hp (hNames p hMem)).2 ⟨hMem, hFiles p hMem⟩⟩⟩
      rintro rfl
      exact hp (prefix_nil.mp hPrefix)

end Hidden

/-! ## Runs -/

inductive TombstoneCall where
  | mark (rel : Path)
  | clear (rel : Path)
  deriving DecidableEq, Repr

namespace TombstoneCall

def rel : TombstoneCall → Path
  | mark rel => rel
  | clear rel => rel

def exec : TombstoneCall → Op Unit
  | mark rel => markTombstone rel
  | clear rel => clearTombstone rel

/-- The marked paths after a call. -/
def update (M : Set Path) : TombstoneCall → Set Path
  | mark rel => insert rel M
  | clear rel => M \ {rel}

/-- The paths that were ever marked, after a call. -/
def extend (E : Set Path) : TombstoneCall → Set Path
  | mark rel => insert rel E
  | clear _ => E

end TombstoneCall

variable {env : Env}

def marked (calls : List TombstoneCall) : Set Path := calls.foldl TombstoneCall.update ∅

def everMarked (calls : List TombstoneCall) : Set Path := calls.foldl TombstoneCall.extend ∅

def tombstoneStep (env : Env) (call : TombstoneCall) (w : World) : World := (call.exec env w).2

def Succeeds (env : Env) (call : TombstoneCall) (w : World) : Prop :=
  (call.exec env w).1 = .ok ()

/-- The tombstone directory is missing or empty. -/
def NoTombstones (fs : HostFs) : Prop :=
  (∀ p, p ≠ [] → tombstoneKind fs p = none) ∧ ∀ k, tombstoneKind fs [] = some k → k = .dir

theorem encodes_empty {fs : HostFs} (h : NoTombstones fs) : Encodes ∅ ∅ (tombstoneKind fs) := by
  refine ⟨fun p hp => ?_, fun p hp _ => ?_, fun m _ hFile => ?_, fun p k hk => ?_, h.2, ?_,
    Set.Subset.refl _⟩
  · simp [h.1 p hp, Below]
  · simp [h.1 p hp]
  · rw [h.1 _ (by simp)] at hFile
    cases hFile
  · by_cases hp : p = []
    · exact .inl (h.2 k (hp ▸ hk))
    · rw [h.1 p hp] at hk
      cases hk
  · simp

theorem tombs_step (hAlias : env.layout.aliasRoot = true) {M E : Set Path} {call : TombstoneCall}
    {w : World} (hw : Tombs M E w) (hRel : call.rel ≠ []) (hOk : Succeeds env call w) :
    Tombs (call.update M) (call.extend E) (tombstoneStep env call w) := by
  cases call with
  | mark rel => exact (triple_markTombstone hAlias hRel).of_ok hw hOk
  | clear rel => exact (triple_clearTombstone hAlias hRel).of_ok hw hOk

theorem tombs_run (hAlias : env.layout.aliasRoot = true) {M E : Set Path}
    {calls : List TombstoneCall} {w : World} (hw : Tombs M E w)
    (hRel : ∀ call ∈ calls, call.rel ≠ []) (hOk : Along (tombstoneStep env)
    (Succeeds env) calls w) :
    Tombs (calls.foldl TombstoneCall.update M) (calls.foldl TombstoneCall.extend E)
      (run (tombstoneStep env) calls w) := by
  induction calls generalizing M E w with
  | nil => exact hw
  | cons call calls ih =>
    exact ih (tombs_step hAlias hw (hRel call mem_cons_self) hOk.1)
      (fun c hc => hRel c (mem_cons_of_mem _ hc)) hOk.2

instance (env : Env) (call : TombstoneCall) (w : World) : Decidable (Succeeds env call w) :=
  inferInstanceAs (Decidable (_ = _))

section Samples

def emptyWorld : World := ⟨emptyFs, ∅, 1, ∅, ∅, ∅, 0⟩

theorem noTombstones_emptyWorld : NoTombstones emptyWorld.fs := by
  have hNone : ∀ p, tombstoneKind emptyFs p = none := fun p => rfl
  refine ⟨fun p _ => hNone p, fun k hk => ?_⟩
  rw [show tombstoneKind emptyWorld.fs [] = none from rfl] at hk
  cases hk

def separateCalls : List TombstoneCall :=
  [.mark [nameOf "a"], .clear [nameOf "a"], .mark [nameOf "b", nameOf "c"]]

end Samples

end FabricFs.Overlay
