import FabricFs.Lib.Runs
import FabricFs.Overlay.Samples
import FabricFs.Overlay.XattrTables

/-!
# Attributes belong to files

What the requests on names and attributes do to the tables of the attribute store, and what
follows for runs in which the host hands out inode numbers again.

* `triple_unlink`, `triple_rename`: a table goes when its object has no name left.
* `triple_setxattr`, `triple_removexattr`: one name of one table changes, or nothing does.
* `attributes_belong_to_files`: the store is a map from the copies to their tables, in every
  run in which no directory with attributes is removed, no call fails that should purge a
  table, and no copy-up finds attributes on a backing object.
-/

namespace FabricFs.Overlay

open Lib Lib.Prog Server Option

variable {env : Env} {fs fs₀ : HostFs} {T : Nat → XattrTable} {B : Set Path} {rel : Path}

/-! ## New objects -/

section Requests

variable (hCow : env.layout.cowRoot = true) (ctx : Option FuseContext)

include hCow

theorem tables_mkdir (mode : Nat) : Keeps env (Tables env T B) (mkdir rel mode ctx) := by
  refine triple_ask (keeps_gates fun c =>
    keeps_seq (keeps_parentMetadata untimed_tables _) <|
    keeps_ensured <|
    keeps_seq (keeps_ensureUnionEntryAbsent _) <|
    triple_learn (triple_targetFileForWrite hCow) fun target _ => ?_)
  exact keeps_seq tables_clearTombstone <| keeps_seq tables_createDir <|
    keeps_seq (tables_setPermissions _) <|
    tables_chown _ _ _

omit hCow in
theorem tables_openTarget (target : Loc) (existed : Bool) (bits mode : Nat) (c : FuseContext) :
    Keeps env (Tables env T B) (openTarget target existed bits mode c) := by
  refine keeps_if (keeps_openFile untimed_tables _ _) <|
    keeps_seq (keeps_seq (keeps_probe _) <|
      keeps_if (keeps_openFile untimed_tables _ _) <|
      triple_ask <| tables_makeNode _ _ _) <|
    keeps_seq (tables_setPermissions _) <|
    keeps_map (tables_chown _ _ _)

omit hCow in
theorem held_checkCreate (existing : Option Loc) (flags : Nat) (c : FuseContext) :
    Keeps env (Held env fs₀ ∅ T B) (checkCreate rel existing flags c) := by
  cases existing with
  | none => exact keeps_seq (keeps_parentMetadata untimed_held _) <| keeps_ensure _ _
  | some loc =>
    exact keeps_seq (keeps_metadata untimed_held _) <| keeps_ensured <| keeps_ensured <|
      keeps_seq (keeps_ensureNotSymlink untimed_held _) <|
      keeps_seq (keeps_metadata untimed_held _) <|
      keeps_seq (keeps_ensureRegularFile _) <|
      keeps_map (keeps_ensureOpenFlagsAllowed _ _ _ _)

theorem tables_createFileOp (hBare : Bare fs₀ rel) (mode flags : Nat) :
    Triple env (Held env fs₀ ∅ T B) (createFileOp rel mode flags ctx)
      (fun _ => Tables env T B) (Tables env T B) := by
  have hDown : ∀ w, Held env fs₀ ∅ T B w → Tables env T B w := fun _ hw => hw.2
  refine triple_ask (triple_gates hDown fun c =>
    triple_bind ((keeps_result _).weaken hDown) fun bits =>
    triple_bind ((keeps_probe _).weaken hDown) fun existing =>
    triple_seq ((held_checkCreate existing flags c).weaken hDown) <|
    triple_bind (Q := fun _ => Held env fs₀ ∅ T B) (Keeps.weaken (keeps_onlyIf fun _ =>
      keeps_if (held_copyUpEmptyFileForTruncate hBare) <| held_copyUpFile hBare)
      hDown) fun _ =>
    Triple.pre (P := Tables env T B) ?_ hDown)
  refine triple_learn (triple_targetFileForWrite hCow) fun target _ => ?_
  refine keeps_bind (keeps_lstat untimed_tables _) fun targetMeta =>
    keeps_seq (keeps_ifSome fun info _ => keeps_ensured <|
      keeps_onlyIf fun _ => keeps_seq (keeps_ensureRegularFile _) <|
      keeps_map (keeps_ensureOpenFlagsAllowed _ _ _ _)) <|
    keeps_seq tables_clearTombstone <|
    keeps_seq tables_createDirAll <|
    keeps_bind (tables_openTarget _ _ _ _ c) fun file =>
    keeps_seq (keeps_fileMetadata untimed_tables _) <|
    keeps_then (keeps_onlyIf fun _ => keeps_setLen untimed_tables (free_tables _) _) ?_
  refine keeps_seq (keeps_fileMetadata untimed_tables _) <|
    keeps_map (keeps_seq (keeps_state _) <| keeps_map (keeps_change fun w hw => ?_))
  exact hw.of_fields rfl rfl

/-! ## Looks at one file system -/

section Looks

variable {P E : World → Prop} {α : Type} {Q : α → World → Prop} (hFs : ∀ w, P w → w.fs = fs)
  (hErr : ∀ w, P w → E w)

include hFs hErr

omit hCow in
theorem triple_resolved {f : Loc → Op α}
    (hf : ∀ loc, resolve env fs rel = some loc → Triple env P (f loc) Q E) :
    Triple env P (resolveExisting rel >>= f) Q E := by
  refine triple_bind (Q := fun loc w => P w ∧ resolve env fs rel = some loc)
    (triple_imp (triple_resolveExisting _)
      (fun loc w hw => ⟨hw.1, hFs w hw.1 ▸ hw.2⟩) hErr) fun loc => triple_fact fun h => hf loc h

omit hCow in
theorem triple_seen (hU : Untimed P) {loc : Loc} {f : Meta → Op α}
    (hf : ∀ node, fs.get loc = some node → Triple env P (f (fs.metaOf node)) Q E) :
    Triple env P (symlinkMetadata loc >>= f) Q E := by
  refine triple_bind (Q := fun info w => P w ∧
      ∃ node, fs.get loc = some node ∧ info = fs.metaOf node)
    (triple_imp (triple_symlinkMetadata hU loc)
      (fun info w hw => ?_) hErr) fun info => triple_fact ?_
  · obtain ⟨hw, node, hNode, hInfo⟩ := hw
    rw [hFs w hw] at hNode hInfo
    exact ⟨hw, node, hNode, hInfo⟩
  · rintro ⟨node, hNode, rfl⟩
    exact hf node hNode

end Looks

/-! ## Names that are added -/

variable {table : XattrTable} {source target : Path}

/-- Both names are names of one object, which has the attributes of the object before. -/
def Linked (env : Env) (fs : HostFs) (source target : Path) (T : Nat → XattrTable) (w : World) :
    Prop :=
  ∃ before node, objectAt env fs source = some before ∧ w.fs.get ⟨.cow, source⟩ = some node ∧
    w.fs.get ⟨.cow, target⟩ = some node ∧ T node.ino = T before.ino

theorem triple_link (source target : Path) (hBare : Bare fs₀ source) :
    Triple env (fun w => Held env fs₀ ∅ T ∅ w ∧ w.fs = fs) (link source target ctx)
      (fun _ w => Tables env T ∅ w ∧ Linked env fs source target T w) (Tables env T ∅) := by
  have hU : Untimed (fun w => Held env fs₀ ∅ T ∅ w ∧ w.fs = fs) :=
    fun w n hw => ⟨untimed_held w n hw.1, hw.2⟩
  have hDown : ∀ w, Held env fs₀ ∅ T ∅ w ∧ w.fs = fs → Tables env T ∅ w := fun _ hw => hw.1.2
  refine triple_ask (triple_gates hDown fun c =>
    triple_resolved (fun _ hw => hw.2) hDown fun src hRes =>
    triple_seq ((keeps_each fun p _ => keeps_checkSearch hU c p).weaken hDown) <|
    triple_seen (fun _ hw => hw.2) hDown hU fun before hBefore => ?_)
  have hObject := objectAt_of_resolve hCow hRes hBefore
  refine triple_then ((keeps_checkNewEntry hU _ c).weaken hDown) ?_
  rw [if_pos hCow]
  refine triple_seq (carried_of (fun _ => triple_copyUpFile named_copyRules)
    (held_copyUpFile hBare) hObject) <|
    triple_seq (carries_createDirAll.weaken fun _ hw => hw.tables) <|
    triple_then (ofCopies_carries.clearTombstone.weaken fun _ hw => hw.tables) ?_
  refine (triple_update ofCopies_carries.untimed fun w _ fs' hw hf => ?_).weaken
    fun _ hw => hw.tables
  obtain ⟨fs'', hLink, hEq⟩ := map_eq_ok.mp hf
  cases hEq
  obtain ⟨node, hSrc, hDir, -, hE, -⟩ := HostFs.hardLink_ok hLink
  refine ⟨untimed_tables _ _ (hw.tables.linked hSrc hDir rfl hE), before, node, hObject, ?_, ?_,
    hw.table_eq hSrc⟩
  · refine (hE.get_eq _).trans (if_neg ?_ |>.trans hSrc)
    intro he
    have hAbsent := hE.absent
    rw [← he, hSrc] at hAbsent
    cases hAbsent
  · exact (hE.get_eq _).trans (if_pos rfl)

/-! ## Names that go -/

/-- The file system is the one before, and so are the tables. -/
def Before (env : Env) (T : Nat → XattrTable) (B : Set Path) (fs : HostFs) (w : World) : Prop :=
  Tables env T B w ∧ w.fs = fs

omit hCow in
theorem untimed_before : Untimed (Before env T B fs) :=
  fun w n hw => ⟨untimed_tables w n hw.1, hw.2⟩

theorem triple_unlink (hPurge : Purgeable env T fs rel) :
    Triple env (Before env T ∅ fs) (unlink rel ctx) (fun _ => Lost env T ∅) (Lost env T ∅) := by
  have hLost : ∀ w, Before env T ∅ fs w → Lost env T ∅ w := fun _ hw => hw.1.lost
  refine triple_ask (triple_gates hLost fun c =>
    triple_resolved (fun _ hw => hw.2) hLost fun loc hRes =>
    triple_seen (fun _ hw => hw.2) hLost untimed_before fun node hNode => ?_)
  refine triple_seq ((keeps_ensure _ _).weaken hLost) <|
    triple_seq ((keeps_parentMetadata untimed_before _).weaken hLost) <|
    triple_seq ((keeps_ensureRemovalAllowed _ _ _ _).weaken hLost) <|
    triple_then ((keeps_ensure _ _).weaken hLost) ?_
  rw [if_pos hCow]
  refine triple_bind (Q := fun _ => Lost env T ∅) (triple_nodeExists ?_ ?_)
    fun _ => ofCopies_lost.markTombstone
  · refine Triple.pre (P := fun w => Before env T ∅ fs w ∧ (fs.get ⟨.cow, rel⟩).isSome = true)
      (triple_fact fun hSome => ?_) (fun w hw => ⟨hw.1, hw.1.2 ▸ hw.2⟩)
    -- what the path stands for is its copy
    obtain rfl : loc = ⟨.cow, rel⟩ := by
      obtain ⟨-, ⟨-, rfl, -⟩ | ⟨-, -, -, hNone⟩⟩ := resolve_eq_some.mp hRes
      · rfl
      · rw [hNone hCow] at hSome
        cases hSome
    exact (triple_unname hCow hNode hPurge (.inl rfl)).post (fun _ _ hw => hw.1)
  · exact triple_pure fun _ hw => hw.1.1.lost

theorem triple_rmdir (hEmpty : ∀ node, fs.get ⟨.cow, rel⟩ = some node → T node.ino = ∅) :
    Triple env (Before env T ∅ fs) (rmdir rel ctx) (fun _ => Tables env T ∅) (Tables env T ∅) := by
  have hTables : ∀ w, Before env T ∅ fs w → Tables env T ∅ w := fun _ hw => hw.1
  refine triple_ask (triple_gates hTables fun c =>
    triple_seq ((keeps_dirIsEmpty untimed_before _).weaken hTables) <|
    triple_seq ((keeps_ensure _ _).weaken hTables) <|
    triple_seq ((keeps_parentMetadata untimed_before _).weaken hTables) <|
    triple_seq ((keeps_resolveExisting _).weaken hTables) <|
    triple_seq ((keeps_symlinkMetadata untimed_before _).weaken hTables) <|
    triple_seq ((keeps_ensureRemovalAllowed _ _ _ _).weaken hTables) <|
    triple_then ((keeps_ensure _ _).weaken hTables) ?_)
  rw [if_pos hCow]
  refine triple_bind ((keeps_probe _).weaken hTables) fun present =>
    triple_bind (Q := fun _ => Tables env T ∅) (triple_if ?_
      <| triple_pure hTables) fun _ => tables_markTombstone
  refine triple_imp (triple_removal untimed_before (.inr rfl))
    (fun _ w hw => ?_) hTables
  obtain ⟨w₁, fs', ⟨hw₁, rfl⟩, hR, hFs, hCache⟩ := hw
  exact (hw₁.removed hR fun _ node hNode hSome => absurd (hEmpty node hNode) hSome).of_fields
    hFs hCache

/-! ## Names that move -/

/-- The checks of `rename` find an object at the old name. -/
theorem triple_checkRename {P E : World → Prop} (hU : Untimed P) (hFs : ∀ w, P w → w.fs = fs)
    (hErr : ∀ w, P w → E w) (source target : Path) (c : FuseContext) :
    Triple env P (checkRename source target c)
      (fun _ w => P w ∧ ∃ before, objectAt env fs source = some before) E := by
  refine triple_resolved hFs hErr fun src hRes => triple_seen hFs hErr hU fun before hBefore => ?_
  refine triple_imp (Q := fun _ => P) (E := P) ?_
    (fun _ _ hw => ⟨hw, before, objectAt_of_resolve hCow hRes hBefore⟩) hErr
  refine keeps_seq (keeps_parentMetadata hU _) <| keeps_seq (keeps_ensureRemovalAllowed _ _ _ _) <|
    keeps_seq (keeps_parentMetadata hU _) <|
    keeps_ensured <|
    keeps_seq (keeps_bind (keeps_probe _) fun found => ?_) <|
    keeps_ensure _ _
  cases found with
  | none => exact keeps_pure _
  | some loc =>
    exact keeps_tryCatch (keeps_map (keeps_symlinkMetadata hU _))
      fun _ => keeps_pure _

/-- The tables `T` as in `Lost`, and the copy of the path has the attributes `table`. -/
def Arrived (env : Env) (T : Nat → XattrTable) (rel : Path) (table : XattrTable) (w : World) :
    Prop :=
  ∃ T', (Tables env T' ∅ w ∧ ∀ ino, T' ino = T ino ∨ Nameless w.fs ino) ∧
    ∃ node, w.fs.get ⟨.cow, rel⟩ = some node ∧ T' node.ino = table

/-- The name of the target is free, and the source, if it is another one, has the attributes
`table`. -/
def Vacated (env : Env) (T : Nat → XattrTable) (source target : Path) (table : XattrTable)
    (w : World) : Prop :=
  w.fs.get ⟨.cow, target⟩ = none ∧
    ∃ T', (Tables env T' ∅ w ∧ ∀ ino, T' ino = T ino ∨ Nameless w.fs ino) ∧
      (source ≠ target → ∀ node, w.fs.get ⟨.cow, source⟩ = some node → T' node.ino = table)

omit hCow in
theorem ofCopies_arrived : OfCopies env (Arrived env T rel table) := by
  rintro w w' hGet hTables ⟨T', ⟨hw, hLost⟩, node, hNode, hTable⟩
  refine ⟨T', ⟨hTables _ _ hw, fun ino => (hLost ino).imp_right fun hNone p found hFound => ?_⟩,
    node, (hGet rel).trans hNode, hTable⟩
  rw [hGet] at hFound
  exact hNone p found hFound

omit hCow in
theorem ofCopies_vacated : OfCopies env (Vacated env T source target table) := by
  rintro w w' hGet hTables ⟨hFree, T', ⟨hw, hLost⟩, hSource⟩
  refine ⟨(hGet target).trans hFree, T', ⟨hTables _ _ hw, fun ino =>
    (hLost ino).imp_right fun hNone p found hFound => ?_⟩, fun hNe node hNode => ?_⟩
  · rw [hGet] at hFound
    exact hNone p found hFound
  · rw [hGet] at hNode
    exact hSource hNe node hNode

omit hCow in
theorem Vacated.lost {w : World} (h : Vacated env T source target table w) : Lost env T ∅ w :=
  let ⟨_, T', hw, _⟩ := h
  ⟨T', hw⟩

theorem triple_replaceTarget (hPurge : (∀ k, env.fault k = none) ∨ target ∈ B) :
    Triple env (Carries env T B source table) (replaceTarget ⟨.cow, target⟩)
      (fun _ => Vacated env T source target table) (Lost env T ∅) := by
  refine triple_nodeExists ?_ (triple_pure fun w hw => ?_)
  · rintro w ⟨hw, -⟩
    have hLost : ∀ w', Before env T B w.fs w' → Lost env T ∅ w' := fun _ h => h.1.forget.lost
    have hPurgeable : Purgeable env T w.fs target :=
      hPurge.imp_right fun hMem => hw.tables.blank target hMem
    have hVacated : ∀ w', Unnamed env w.fs target T B w' →
        Vacated env T source target table w' := by
      rintro w' ⟨⟨T', hw', hT⟩, hNames⟩
      refine ⟨(hNames _).trans (if_pos rfl), T', ⟨hw'.forget, hT⟩, fun hNe node hNode => ?_⟩
      have hSource : w.fs.get ⟨.cow, source⟩ = some node := by
        rw [hNames, if_neg (by simpa using hNe)] at hNode
        exact hNode
      rcases hT node.ino with hEq | hNone
      · exact hEq.trans (hw.table_eq hSource)
      · exact absurd rfl (hNone source node hNode)
    have hUnname : ∀ {node : Node} {x : Op Unit}, w.fs.get ⟨.cow, target⟩ = some node →
        (x = removeFile ⟨.cow, target⟩ ∨ x = removeDir ⟨.cow, target⟩) →
        Triple env (Before env T B w.fs) (do
          x
          purgeIfLastLink (w.fs.metaOf node))
          (fun _ => Vacated env T source target table) (Lost env T ∅) := fun hNode hx =>
      triple_imp (triple_unname hCow hNode hPurgeable hx) (fun _ => hVacated)
        (fun _ ⟨T', h, hT⟩ => ⟨T', h.forget, hT⟩)
    refine (triple_seen (fun _ h => h.2) hLost untimed_before fun node hNode =>
        triple_if ?_ ?_ :
      Triple env (Before env T B w.fs) _ _ _) w ⟨hw.tables, rfl⟩
    · exact triple_seq ((keeps_query untimed_before _).weaken hLost) <|
        triple_seq ((keeps_ensure _ _).weaken hLost) <|
        hUnname hNode (.inr rfl)
    · exact hUnname hNode (.inl rfl)
  · exact ⟨hw.2, T, ⟨hw.1.tables.forget, fun _ => .inl rfl⟩,
      fun _ node hNode => hw.1.table_eq hNode⟩

omit hCow in
theorem triple_renameNode :
    Triple env (Vacated env T source target table) (renameNode ⟨.cow, source⟩ ⟨.cow, target⟩)
      (fun _ => Arrived env T target table) (Lost env T ∅) := by
  refine (triple_update ofCopies_vacated.untimed fun w _ fs' hw hf => ?_).weaken fun _ hw => hw.lost
  obtain ⟨fs'', hRename, hEq⟩ := map_eq_ok.mp hf
  cases hEq
  obtain ⟨hFree, T', ⟨hTables, hLost⟩, hSource⟩ := hw
  obtain ⟨-, -, -, node, hNode, ⟨old, hOld, -⟩ | ⟨hR, -⟩⟩ := HostFs.rename_ok hRename
  · rw [hFree] at hOld
    cases hOld
  · have hNe : source ≠ target := by
      rintro rfl
      exact hR.apart (List.prefix_refl _)
    refine ⟨T', ⟨untimed_tables _ _ (hTables.relocated hR hFree), fun ino =>
      (hLost ino).imp_right fun hNone p found hFound => ?_⟩, node, ?_, hSource hNe node hNode⟩
    · obtain ⟨q, -, hq⟩ := moved_eq_some ((hR.get_eq p).symm.trans hFound)
      exact hNone q found hq
    · have hMoved := Tree.moved_append (t := w.fs.tree .cow) source target []
      rw [List.append_nil, List.append_nil] at hMoved
      exact (hR.get_eq target).trans (hMoved.trans hNode)

/-- The copy at the new name has the attributes of the object at the old one. -/
theorem triple_rename (source target : Path) (hBare : ∀ t, Bare fs₀ (source ++ t))
    (hPurge : (∀ k, env.fault k = none) ∨ target ∈ B) :
    Triple env (fun w => Held env fs₀ ∅ T B w ∧ w.fs = fs) (rename source target ctx)
      (fun _ w => ∃ before, objectAt env fs source = some before ∧
        Arrived env T target (T before.ino) w) (Lost env T ∅) := by
  have hU : Untimed (fun w => Held env fs₀ ∅ T B w ∧ w.fs = fs) :=
    fun w n hw => ⟨untimed_held w n hw.1, hw.2⟩
  have hDown : ∀ w, Held env fs₀ ∅ T B w ∧ w.fs = fs → Lost env T ∅ w :=
    fun _ hw => hw.1.2.forget.lost
  refine triple_ask (triple_gates hDown fun c =>
    triple_seq (triple_checkRename hCow hU (fun _ hw => hw.2) hDown source target c) <|
    triple_fact ?_)
  rintro ⟨before, hBefore⟩
  rw [if_pos hCow]
  refine Triple.post (Q := fun _ => Arrived env T target (T before.ino)) (triple_seq ?_
    <| ofCopies_arrived.rewritePaths source target |>.weaken fun _ ⟨T', hw, _⟩ => ⟨T', hw⟩)
    (fun _ _ hw => ⟨before, hBefore, hw⟩)
  have hCarried : Triple env (fun w => Held env fs₀ ∅ T B w ∧ w.fs = fs) (copyUpTree source)
      (fun _ => Carries env T B source (T before.ino)) (Lost env T ∅) :=
    (carried_of (fun _ => triple_seq (triple_state.post fun _ _ hw => hw.1) <|
      triple_copyUpTreeAux named_copyRules fun _ _ => triple_of_named)
      (held_copyUpTree hBare) hBefore).weaken
      fun _ hw => hw.forget.lost
  have hLost : ∀ w, Carries env T B source (T before.ino) w → Lost env T ∅ w :=
    fun _ hw => hw.tables.forget.lost
  refine triple_seq hCarried <| triple_seq
    (triple_seq ((keeps_probe _).weaken hLost) <| triple_seq ((keeps_ensure _ _).weaken hLost) <|
      triple_seq (carries_createDirAll.weaken hLost) <|
      triple_seq (triple_replaceTarget hCow hPurge) <|
      triple_seq (ofCopies_vacated.clearTombstone.weaken fun _ hw => hw.lost) <|
      triple_renameNode) <|
    ofCopies_arrived.markTombstone.weaken fun _ ⟨T', hw, _⟩ => ⟨T', hw⟩

/-! ## Attributes -/

/-- A path without an object is not made ready for a change of its attributes. -/
theorem triple_materialize_nothing (hNone : objectAt env fs rel = none) :
    Triple env (fun w => Held env fs₀ ∅ T ∅ w ∧ w.fs = fs) (materializeForXattr rel)
      (fun _ _ => False) (Tables env T ∅) := by
  have hU : Untimed (fun w => Held env fs₀ ∅ T ∅ w ∧ w.fs = fs) :=
    fun w n hw => ⟨untimed_held w n hw.1, hw.2⟩
  have hNever : ∀ {info : Meta} {x : Op Unit} {Q : Unit → World → Prop} {E : World → Prop},
      Copies env rel (fun w => Held env fs₀ ∅ T ∅ w ∧ w.fs = fs) Q E info x := by
    rintro info x Q E w ⟨⟨-, rfl⟩, -, hRoot, node, hNode, -⟩
    rw [objectAt, hRoot, if_pos rfl, hNode] at hNone
    cases hc : w.fs.get ⟨.cow, rel⟩ <;> simp [hc] at hNone
  refine triple_ask ?_
  rw [if_pos hCow]
  refine triple_bind (Q := fun _ w => Held env fs₀ ∅ T ∅ w ∧ w.fs = fs)
    (triple_copyUpNode (.of_never hU (fun _ hw _ => hw) (fun _ hw => hw.1.2) hNever))
      fun _ => triple_nodeExists ?_
        (triple_bind (Q := fun _ _ => False) (triple_throw fun _ hw => hw.1.1.2)
          fun _ => triple_done)
  rintro w ⟨⟨-, rfl⟩, hSome⟩
  rw [objectAt] at hNone
  rw [(or_eq_none_iff.mp hNone).1] at hSome
  cases hSome

/-- A path that has been made ready for a change of its attributes has a copy, with the
attributes of its object. -/
theorem triple_materializeForXattr (hBare : Bare fs₀ rel) :
    Triple env (fun w => Held env fs₀ ∅ T ∅ w ∧ w.fs = fs) (materializeForXattr rel)
      (fun loc w => (∃ before, objectAt env fs rel = some before ∧
        Carries env T ∅ rel (T before.ino) w) ∧ loc = ⟨.cow, rel⟩) (Tables env T ∅) := by
  cases hObject : objectAt env fs rel with
  | none =>
    exact (triple_materialize_nothing hCow hObject).post (fun _ _ h => h.elim)
  | some before =>
    refine triple_ask ?_
    rw [if_pos hCow]
    exact triple_seq (carried_of (fun _ => triple_copyUpNode named_copyRules)
      (triple_copyUpNode (held_copyRules hBare)) hObject) <|
      triple_seq ((keeps_probe _).weaken fun _ hw => hw.tables) <|
      triple_seq ((keeps_ensure _ _).weaken fun _ hw => hw.tables) <|
      triple_pure fun _ hw => ⟨⟨before, rfl, hw⟩, rfl⟩

/-- The table of the object of a path has been changed as the update says, in the cache and in
the manifest, and no other table. -/
def Updated (env : Env) (fs : HostFs) (rel : Path) (T : Nat → XattrTable)
    (f : XattrTable → Except Errno XattrTable) (w : World) : Prop :=
  ∃ before node table, objectAt env fs rel = some before ∧ w.fs.get ⟨.cow, rel⟩ = some node ∧
    f (T before.ino) = .ok table ∧ Tables env (setTable T node.ino table) ∅ w ∧
    w.cache.lookup node.ino = some table

theorem triple_updateAcl (hBare : Bare fs₀ rel) {x : Loc → Op Unit}
    (hx : ∀ loc, Keeps env (Tables env T ∅) (x loc)) :
    Triple env (fun w => Held env fs₀ ∅ T ∅ w ∧ w.fs = fs) (do
      let target ← materializeForXattr rel
      ensure (!xattrUpdatesBlocked env target) .eacces
      x target) (fun _ => Tables env T ∅) (Tables env T ∅) :=
  triple_seq ((triple_materializeForXattr hCow hBare).post
    (fun _ _ hw => hw.1.choose_spec.2.tables)) <|
  keeps_ensured <| hx _

theorem triple_updateAttribute (hBare : Bare fs₀ rel) (f : XattrTable → Except Errno XattrTable) :
    Triple env (fun w => Held env fs₀ ∅ T ∅ w ∧ w.fs = fs) (do
      let target ← materializeForXattr rel
      ensure (!xattrUpdatesBlocked env target) .eacces
      let key ← keyForPath target
      updateTable key f) (fun _ => Updated env fs rel T f) (Tables env T ∅) := by
  refine triple_bind (triple_materializeForXattr hCow hBare) fun target => triple_fact ?_
  rintro rfl
  rintro w ⟨before, hBefore, hw⟩
  refine (triple_seq ((keeps_ensure _ _).weaken fun _ hw => hw.tables) <|
    triple_bind (Q := fun key w => Carries env T ∅ rel (T before.ino) w ∧
        ∃ node, w.fs.get ⟨.cow, rel⟩ = some node ∧ key = node.ino)
      (triple_bind ((triple_symlinkMetadata ofCopies_carries.untimed _).weaken
        fun _ hw => hw.tables) fun info => triple_pure fun w hw => ?_) fun key => ?_ :
    Triple env (Carries env T ∅ rel (T before.ino)) _ (fun _ => Updated env fs rel T f)
      (Tables env T ∅)) w hw
  · obtain ⟨hw, node, hNode, rfl⟩ := hw
    exact ⟨hw, node, hNode, rfl⟩
  · rintro w ⟨hw, node, hNode, rfl⟩
    have hTable : T node.ino = T before.ino := hw.table_eq hNode
    refine (triple_updateTable hCow f).post (fun _ w' h => ?_) w ⟨hw.tables, hNode⟩
    obtain ⟨table, hf, hTables, hCache, hGet⟩ := h
    exact ⟨before, node, table, hBefore, hGet, hTable ▸ hf, hTables, hCache⟩

/-- What `setxattr` does to a table. -/
def setEntry (name value : Bytes) (flags : Nat) (table : XattrTable) :
    Except Errno XattrTable :=
  (checkXattrFlags table name flags).map (fun _ => table.insert name value)

/-- What `removexattr` does to a table. -/
def removeEntry (name : Bytes) (table : XattrTable) : Except Errno XattrTable :=
  if (table.lookup name).isSome then .ok (table.erase name) else .error .enodata

theorem triple_setxattr (hBare : Bare fs₀ rel) (name value : Bytes) (flags : Nat) :
    Triple env (fun w => Held env fs₀ ∅ T ∅ w ∧ w.fs = fs) (setxattr rel name value flags)
      (fun _ w => if isAclName name then Tables env T ∅ w
        else Updated env fs rel T (setEntry name value flags) w) (Tables env T ∅) := by
  refine triple_ask ?_
  by_cases hAcl : isAclName name = true
  · simp only [if_pos hAcl]
    exact triple_updateAcl hCow hBare fun _ =>
      keeps_setXattr untimed_tables (freeAt_tables _ _) _ _ _
  · simp only [if_neg hAcl]
    exact triple_updateAttribute hCow hBare (setEntry name value flags)

theorem triple_removexattr (hBare : Bare fs₀ rel) (name : Bytes) :
    Triple env (fun w => Held env fs₀ ∅ T ∅ w ∧ w.fs = fs) (removexattr rel name)
      (fun _ w => if isAclName name then Tables env T ∅ w
        else Updated env fs rel T (removeEntry name) w) (Tables env T ∅) := by
  refine triple_ask ?_
  by_cases hAcl : isAclName name = true
  · simp only [if_pos hAcl]
    exact triple_updateAcl hCow hBare fun _ =>
      keeps_removeXattr untimed_tables (freeAt_tables _ _) _
  · simp only [if_neg hAcl]
    exact triple_updateAttribute hCow hBare (removeEntry name)

end Requests

/-! ## Runs -/

/-- A request, with the host calls that fail meanwhile, or a restart of the server. -/
inductive StoreEvent where
  | request (fault : Nat → Option Fault) (request : Request)
  | restart

def storeStep (env : Env) : StoreEvent → World → World
  | .request fault request, w => step { env with fault := fault } request w
  | .restart, w => { started w.fs with calls := w.calls }

/-- The store is a map from the copies to tables, and the cache agrees with it. -/
structure StoreOfFiles (env : Env) (w : World) : Prop where
  cached : ∀ ino table, w.cache.lookup ino = some table → table = storedTable env w.fs ino
  live : ∀ ino, storedTable env w.fs ino ≠ ∅ →
    ∃ p node, w.fs.get ⟨.cow, p⟩ = some node ∧ node.ino = ino

/-- One table has been replaced, in the manifest and in the cache, as the relation says. -/
def Replaced (env : Env) (rel : Path) (R : XattrTable → XattrTable → Prop) (w w' : World) : Prop :=
  ∃ before node, objectAt env w.fs rel = some before ∧ w'.fs.get ⟨.cow, rel⟩ = some node ∧
    R (storedTable env w.fs before.ino) (storedTable env w'.fs node.ino) ∧
    w'.cache.lookup node.ino = some (storedTable env w'.fs node.ino) ∧
    ∀ ino, ino ≠ node.ino → storedTable env w'.fs ino = storedTable env w.fs ino

/-- The name is set, no other name changes, and the flags are honoured. -/
def SetsName (name value : Bytes) (flags : Nat) (before after : XattrTable) : Prop :=
  (flags &&& xattrCreate ≠ 0 → before.lookup name = none) ∧
    (flags &&& xattrReplace ≠ 0 → (before.lookup name).isSome = true) ∧
    after.lookup name = some value ∧
    ∀ other, other ≠ name → after.lookup other = before.lookup other

/-- The name is removed, and no other name changes. -/
def RemovesName (name : Bytes) (before after : XattrTable) : Prop :=
  (before.lookup name).isSome = true ∧ after.lookup name = none ∧
    ∀ other, other ≠ name → after.lookup other = before.lookup other

/-- What a request does to the tables of the store. -/
def TablesFollow (env : Env) (request : Request) (w : World) : Prop :=
  let w' := step env request w
  let done := (exec request env w).1.isOk = true
  let same := ∀ ino, storedTable env w'.fs ino = storedTable env w.fs ino
  let kept := ∀ ino, storedTable env w'.fs ino = storedTable env w.fs ino ∨ Nameless w'.fs ino
  match request with
  | .create path .. | .mkdir path .. => same ∧ (resolve env w.fs path = none →
      ∀ node, w'.fs.get ⟨.cow, path⟩ = some node → storedTable env w'.fs node.ino = ∅)
  | .link source target _ => same ∧ (done → Linked env w.fs source target (storedTable env w.fs) w')
  | .unlink .. => kept
  | .rename source target _ => kept ∧ (done → ∃ before node,
      objectAt env w.fs source = some before ∧ w'.fs.get ⟨.cow, target⟩ = some node ∧
      storedTable env w'.fs node.ino = storedTable env w.fs before.ino)
  | .setxattr path name value flags => if done ∧ ¬ isAclName name
      then Replaced env path (SetsName name value flags) w w' else same
  | .removexattr path name => if done ∧ ¬ isAclName name
      then Replaced env path (RemovesName name) w w' else same
  | _ => same

/-- Nothing with attributes is left behind the tombstone of a path. -/
def Unlittered (env : Env) (rel : Path) (w : World) : Prop :=
  resolve env w.fs rel = none →
    ∀ node, w.fs.get ⟨.cow, rel⟩ = some node → storedTable env w.fs node.ino = ∅

/-- The requests on names and attributes: no directory with attributes is removed, a table that
has to go is not held up by a failing call, and what is copied up has no attributes on the
host. -/
def Careful (env : Env) (w : World) : Request → Prop
  | .getxattr .. | .listxattr .. => True
  | .create path .. => Bare w.fs path ∧ Unlittered env path w
  | .mkdir path .. => Unlittered env path w
  | .link source _ _ => Bare w.fs source
  | .unlink path _ => Purgeable env (storedTable env w.fs) w.fs path
  | .rmdir path _ => ∀ node, w.fs.get ⟨.cow, path⟩ = some node → storedTable env w.fs node.ino = ∅
  | .rename source target _ => (∀ t, Bare w.fs (source ++ t)) ∧
      Purgeable env (storedTable env w.fs) w.fs target
  | .setxattr path name _ _ | .removexattr path name =>
      Bare w.fs path ∧ (isAclName name = true → PlainTarget w.fs path)
  | _ => False

section Steps

variable {w : World}

variable {name : Bytes} {w' : World}

theorem outcome {α : Type} {f : α → Response} {x : Op α} {P Q E : World → Prop}
    (h : Triple env P x (fun _ => Q) E) (hw : P w) :
    ((respond f x env w).1.isOk = true → Q (respond f x env w).2) ∧
      ((respond f x env w).1.isOk = false → E (respond f x env w).2) := by
  have hRespond : Triple env P (respond f x) (fun _ => Q) E :=
    triple_seq h <| triple_done
  have hRun := hRespond w hw
  revert hRun
  rcases respond f x env w with ⟨e | a, w'⟩
  · exact fun hRun => ⟨(fun hOk => by cases hOk), fun _ => hRun⟩
  · exact fun hRun => ⟨fun _ => hRun, (fun hOk => by cases hOk)⟩

theorem Tables.store_eq (h : Tables env T B w) : storedTable env w.fs = T := funext h.stored

theorem Bare.of_guarded (hw : Guarded fs₀ ∅ w) (h : Bare w.fs rel) : Bare fs₀ rel := by
  intro node hNode
  rw [← hw.inode_eq node.ino ⟨rel, node, hNode, rfl⟩]
  exact h node (by rw [hw.get_backing]; exact hNode)

theorem setsName_of_setEntry {value : Bytes} {flags : Nat} {before after : XattrTable}
    (h : setEntry name value flags before = .ok after) :
    SetsName name value flags before after := by
  obtain ⟨_, hFlags, rfl⟩ := map_eq_ok.mp h
  unfold checkXattrFlags at hFlags
  split at hFlags
  · cases hFlags
  · rename_i hCreate
    split at hFlags
    · cases hFlags
    · rename_i hReplace
      refine ⟨fun hc => ?_, fun hr => ?_, ?_, fun other hNe => ?_⟩
      · simpa using fun hSome => hCreate ⟨hc, hSome⟩
      · simpa [isSome_iff_ne_none] using fun hNone => hReplace ⟨hr, hNone⟩
      · rw [Dict.lookup_insert_eq, if_pos rfl]
      · rw [Dict.lookup_insert_eq, if_neg hNe]

theorem removesName_of_removeEntry {before after : XattrTable}
    (h : removeEntry name before = .ok after) : RemovesName name before after := by
  unfold removeEntry at h
  split at h
  · rename_i hSome
    cases h
    refine ⟨hSome, ?_, fun other hNe => ?_⟩
    · rw [Dict.lookup_erase_eq, if_pos rfl]
    · rw [Dict.lookup_erase_eq, if_neg hNe]
  · cases h

theorem Updated.replaced {f : XattrTable → Except Errno XattrTable}
    {R : XattrTable → XattrTable → Prop} (hR : ∀ {a b}, f a = .ok b → R a b)
    (h : Updated env w.fs rel (storedTable env w.fs) f w') : Replaced env rel R w w' := by
  obtain ⟨before, node, table, hBefore, hNode, hf, hTables, hCache⟩ := h
  have hStored := hTables.stored
  refine ⟨before, node, hBefore, hNode, ?_, ?_, fun ino hNe => ?_⟩
  · rw [hStored, setTable_self]
    exact hR hf
  · rw [hStored, setTable_self]
    exact hCache
  · rw [hStored, setTable_of_ne hNe]

theorem Lost.kept (h : Lost env T ∅ w') :
    ∀ ino, storedTable env w'.fs ino = T ino ∨ Nameless w'.fs ino := by
  obtain ⟨T', hTables, hT⟩ := h
  exact fun ino => (hT ino).imp_left fun hEq => (hTables.stored ino).trans hEq

/-- After an update of a table: the new one if it succeeded, all of the old ones otherwise. -/
theorem follow_update {done : Bool} {f : XattrTable → Except Errno XattrTable}
    {R : XattrTable → XattrTable → Prop} (hR : ∀ {a b}, f a = .ok b → R a b)
    (hDone : done = true → if isAclName name then Tables env (storedTable env w.fs) ∅ w' else
      Updated env w.fs rel (storedTable env w.fs) f w')
    (hFailed : done = false → Tables env (storedTable env w.fs) ∅ w') :
    (∃ T', Tables env T' ∅ w') ∧ if done = true ∧ ¬ isAclName name then Replaced env rel R w w'
      else ∀ ino, storedTable env w'.fs ino = storedTable env w.fs ino := by
  have hSame : Tables env (storedTable env w.fs) ∅ w' → ¬ (done = true ∧ ¬ isAclName name) →
      (∃ T', Tables env T' ∅ w') ∧ if done = true ∧ ¬ isAclName name then Replaced env rel R w w'
        else ∀ ino, storedTable env w'.fs ino = storedTable env w.fs ino := by
    intro hTables hNot
    rw [if_neg hNot]
    exact ⟨⟨_, hTables⟩, hTables.stored⟩
  cases hd : done with
  | false => exact hd ▸ hSame (hFailed hd) (by simp [hd])
  | true =>
    have hOp := hDone hd
    by_cases hAcl : isAclName name = true
    · rw [if_pos hAcl] at hOp
      exact hd ▸ hSame hOp (by simp [hAcl])
    · rw [if_neg hAcl] at hOp
      rw [if_pos ⟨rfl, hAcl⟩]
      refine ⟨?_, hOp.replaced hR⟩
      obtain ⟨before, node, table, -, -, -, hTables, -⟩ := hOp
      exact ⟨_, hTables⟩

/-- One step: the store stays a map from the copies to tables. -/
theorem held_step (hCow : env.layout.cowRoot = true) {request : Request}
    (hw : Held env fs₀ ∅ (storedTable env w.fs) ∅ w) (hCareful : Careful env w request) :
    Guarded fs₀ ∅ (step env request w) ∧ (∃ T', Tables env T' ∅ (step env request w)) ∧
      TablesFollow env request w := by
  have hGuard : ∀ {α : Type} {f : α → Response} {x : Op α}, Keeps env (Guarded fs₀ ∅) x →
      Guarded fs₀ ∅ (respond f x env w).2 := fun hx =>
    Triple.after (keeps_map hx) hw.1
  have hLook : ∀ {α : Type} {f : α → Response} {x : Op α},
      Keeps env (Tables env (storedTable env w.fs) ∅) x →
      Tables env (storedTable env w.fs) ∅ (respond f x env w).2 := fun hx =>
    Triple.after (keeps_map hx) hw.2
  cases request with
  | getxattr path name size =>
    have hTables := hLook (f := .bytes) (keeps_getxattr stable_tables path name size)
    exact ⟨hGuard (keeps_getxattr stable_guarded path name size), ⟨_, hTables⟩, hTables.stored⟩
  | listxattr path =>
    have hTables := hLook (f := .names) (keeps_listxattr stable_tables path)
    exact ⟨hGuard (keeps_listxattr stable_guarded path), ⟨_, hTables⟩, hTables.stored⟩
  | create path mode flags ctx =>
    obtain ⟨hBare, hClean⟩ := hCareful
    have hOp : ∀ {B : Set Path}, Tables env (storedTable env w.fs) B w →
        Tables env (storedTable env w.fs) B (step env (.create path mode flags ctx) w) := fun hB =>
      Triple.after (J := Tables env (storedTable env w.fs) _)
        (triple_seq (tables_createFileOp hCow ctx (hBare.of_guarded hw.1) mode flags)
          <| keeps_pure _) ⟨hw.1, hB⟩
    refine ⟨hGuard (guarded_createFileOp hCow ctx mode flags), ⟨_, hOp hw.2⟩, (hOp hw.2).stored,
      fun hNone node hNode => ?_⟩
    have hBlank := hOp (hw.2.insert (hClean hNone))
    rw [hBlank.stored]
    exact hBlank.blank path (Set.mem_insert _ _) node hNode
  | mkdir path mode ctx =>
    have hOp : ∀ {B : Set Path}, Tables env (storedTable env w.fs) B w →
        Tables env (storedTable env w.fs) B (step env (.mkdir path mode ctx) w) := fun hB =>
      Triple.after (J := Tables env (storedTable env w.fs) _)
        (keeps_map (tables_mkdir hCow ctx mode)) hB
    refine ⟨hGuard (guarded_mkdir hCow ctx mode), ⟨_, hOp hw.2⟩, (hOp hw.2).stored,
      fun hNone node hNode => ?_⟩
    have hBlank := hOp (hw.2.insert (hCareful hNone))
    rw [hBlank.stored]
    exact hBlank.blank path (Set.mem_insert _ _) node hNode
  | link source target ctx =>
    have hOp := outcome (f := fun _ => .done)
      (triple_link hCow ctx source target (hCareful.of_guarded hw.1)) ⟨hw, rfl⟩
    have hTables : Tables env (storedTable env w.fs) ∅ (step env (.link source target ctx) w) := by
      cases hd : (exec (.link source target ctx) env w).1.isOk with
      | true => exact (hOp.1 hd).1
      | false => exact hOp.2 hd
    exact ⟨hGuard (guarded_link hCow ctx source target), ⟨_, hTables⟩, hTables.stored,
      fun hDone => (hOp.1 hDone).2⟩
  | unlink path ctx =>
    have hLost : Lost env (storedTable env w.fs) ∅ (step env (.unlink path ctx) w) :=
      Triple.after (triple_seq (triple_unlink hCow ctx hCareful)
        <| triple_done) ⟨hw.2, rfl⟩
    exact ⟨hGuard (guarded_unlink hCow ctx), ⟨_, hLost.choose_spec.1⟩, hLost.kept⟩
  | rmdir path ctx =>
    have hTables : Tables env (storedTable env w.fs) ∅ (step env (.rmdir path ctx) w) :=
      Triple.after (triple_seq (triple_rmdir hCow ctx hCareful)
        <| triple_done) ⟨hw.2, rfl⟩
    exact ⟨hGuard (guarded_rmdir hCow ctx), ⟨_, hTables⟩, hTables.stored⟩
  | rename source target ctx =>
    obtain ⟨hBare, hPurge⟩ := hCareful
    have hBare₀ : ∀ t, Bare fs₀ (source ++ t) := fun t => (hBare t).of_guarded hw.1
    -- a target without attributes is among the paths that are to be without any
    obtain ⟨B, hB, hFree⟩ : ∃ B : Set Path, Tables env (storedTable env w.fs) B w ∧
        ((∀ k, env.fault k = none) ∨ target ∈ B) := by
      rcases hPurge with hNever | hEmpty
      · exact ⟨∅, hw.2, .inl hNever⟩
      · exact ⟨_, hw.2.insert hEmpty, .inr (Set.mem_insert target ∅)⟩
    have hOp := outcome (f := fun _ => .done)
      (triple_rename hCow ctx source target hBare₀ hFree) ⟨⟨hw.1, hB⟩, rfl⟩
    have hLost : Lost env (storedTable env w.fs) ∅ (step env (.rename source target ctx) w) := by
      cases hd : (exec (.rename source target ctx) env w).1.isOk with
      | true =>
        obtain ⟨before, -, T', hT, -⟩ := hOp.1 hd
        exact ⟨T', hT⟩
      | false => exact hOp.2 hd
    refine ⟨hGuard (guarded_rename hCow ctx source target), ⟨_, hLost.choose_spec.1⟩, hLost.kept,
      fun hDone => ?_⟩
    obtain ⟨before, hBefore, T', ⟨hTables, -⟩, node, hNode, hTable⟩ := hOp.1 hDone
    exact ⟨before, node, hBefore, hNode, (hTables.stored _).trans hTable⟩
  | setxattr path name value flags =>
    obtain ⟨hBare, hPlain⟩ := hCareful
    have hOp := outcome (f := fun _ => .done)
      (triple_setxattr hCow (hBare.of_guarded hw.1) name value flags) ⟨hw, rfl⟩
    exact ⟨Triple.after (triple_seq (guarded_setxattr hCow name value flags)
      <| keeps_pure _) ⟨hw.1, hPlain⟩, follow_update setsName_of_setEntry hOp.1 hOp.2⟩
  | removexattr path name =>
    obtain ⟨hBare, hPlain⟩ := hCareful
    have hOp := outcome (f := fun _ => .done)
      (triple_removexattr hCow (hBare.of_guarded hw.1) name) ⟨hw, rfl⟩
    exact ⟨Triple.after (triple_seq (guarded_removexattr hCow name)
      <| keeps_pure _) ⟨hw.1, hPlain⟩, follow_update removesName_of_removeEntry hOp.1 hOp.2⟩
  | _ => exact hCareful.elim

end Steps

variable {w : World}

/-- The names of the copies are theirs alone, a directory has one of them, and only copies have
attributes. -/
structure Tidy (env : Env) (fs : HostFs) : Prop where
  live : ∀ ino, storedTable env fs ino ≠ ∅ → ∃ p node, fs.get ⟨.cow, p⟩ = some node ∧ node.ino = ino
  apart : ∀ p loc node other, loc.root ≠ .cow → fs.get ⟨.cow, p⟩ = some node →
    fs.get loc = some other → node.ino ≠ other.ino
  dirs : ∀ p q node other, fs.get ⟨.cow, p⟩ = some node → fs.get ⟨.cow, q⟩ = some other →
    node.ino = other.ino → node.isDir = true → p = q

/-- `XATTR_DIR`, the directory of the manifests in the copy-on-write root. -/
def manifestDir : Name := nameOf ".fabricfs_xattrs"

/-- The paths that a request on names or attributes works on. -/
def touched : Request → List Path
  | .create path .. | .mkdir path .. | .unlink path _ | .rmdir path _ | .setxattr path ..
  | .removexattr path _ => [path]
  | .link source target _ | .rename source target _ => [source, target]
  | _ => []

/-- The path leads neither to the manifests, which are visible files of the copy-on-write tree,
nor through a symbolic link. -/
def LeavesManifests (fs : HostFs) (path : Path) : Prop :=
  path.head? ≠ some manifestDir ∧ fs.Straight path

/-- The condition on an event of a run. -/
def CarefulEvent (env : Env) : StoreEvent → World → Prop
  | .request fault request, w => (∀ path ∈ touched request, LeavesManifests w.fs path) ∧
      Careful { env with fault := fault } w request
  | .restart, _ => True

/-- What an event does to the tables of the store. -/
def Faithful (env : Env) : StoreEvent → World → Prop
  | .request fault request, w => TablesFollow { env with fault := fault } request w
  | .restart, w =>
    ∀ ino, storedTable env (storeStep env .restart w).fs ino = storedTable env w.fs ino

/-- Which calls fail does not matter for what the store holds. -/
theorem Tables.refault (fault : Nat → Option Fault) :
    Tables { env with fault := fault } T B w ↔ Tables env T B w :=
  ⟨fun h => ⟨h.cached, h.stored, h.live, h.apart, h.dirs, h.blank⟩,
    fun h => ⟨h.cached, h.stored, h.live, h.apart, h.dirs, h.blank⟩⟩

/-- What holds in every state of a run. -/
def Stored (env : Env) (fs₀ : HostFs) (w : World) : Prop :=
  Held env fs₀ ∅ (storedTable env w.fs) ∅ w

theorem Stored.of_tables (hGuard : Guarded fs₀ ∅ w) (hTables : Tables env T ∅ w) :
    Stored env fs₀ w := by
  refine ⟨hGuard, ?_⟩
  rw [hTables.store_eq]
  exact hTables

theorem stored_step (hCow : env.layout.cowRoot = true) {event : StoreEvent} (hw : Stored env fs₀ w)
    (hCareful : CarefulEvent env event w) :
    Stored env fs₀ (storeStep env event w) ∧ Faithful env event w := by
  cases event with
  | request fault request =>
    obtain ⟨hGuard, ⟨T', hTables⟩, hFollow⟩ :=
      @held_step { env with fault := fault } fs₀ w hCow request
        ⟨hw.1, (Tables.refault fault).mpr hw.2⟩ hCareful.2
    exact ⟨.of_tables hGuard ((Tables.refault fault).mp hTables), hFollow⟩
  | restart =>
    refine ⟨.of_tables ?_ ?_ (T := storedTable env w.fs), fun _ => rfl⟩
    · exact ⟨hw.1.tree_eq, hw.1.inode_eq, hw.1.apart,
        fun _ _ _ hl => by simp [storeStep, started] at hl, hw.1.plain⟩
    · exact ⟨fun _ _ hl => by simp [storeStep, started] at hl, fun _ => rfl, hw.2.live, hw.2.apart,
        hw.2.dirs, fun _ hp => hp.elim⟩

/-- **The store is a map from live files to attribute tables.** In every run of requests on
names and attributes and of restarts that are `CarefulEvent`s, whatever calls of the host fail
and whichever inode numbers it hands out: in every state reached the cache agrees with the
manifests and only copies have attributes; what is created has none; the attributes of an
object follow it through `rename`, are those of all its names, and stay until no name is left;
a successful `setxattr` or `removexattr` changes that name of that object in the cache and in
the manifest and nothing else, as its flags say; a failing one changes no table. -/
theorem attributes_belong_to_files (hCow : env.layout.cowRoot = true) {fs : HostFs}
    (hSep : Separate fs) (hTidy : Tidy env fs) {events : List StoreEvent}
    (hCareful : Runs.Along (storeStep env) (CarefulEvent env) events (started fs)) :
    Runs.Along (storeStep env) (fun event w => StoreOfFiles env w ∧ Faithful env event w) events
        (started fs) ∧
      StoreOfFiles env (Runs.run (storeStep env) events (started fs)) := by
  have hStart : Stored env fs (started fs) := .of_tables (guarded_started hSep)
    (T := storedTable env fs) ⟨fun _ _ hl => by simp [started] at hl, fun _ => rfl, hTidy.live,
      hTidy.apart, hTidy.dirs, fun _ hp => hp.elim⟩
  have hFiles : ∀ {w}, Stored env fs w → StoreOfFiles env w :=
    fun hw => ⟨hw.2.cached, hw.2.live⟩
  generalize started fs = w at hStart hCareful
  induction events generalizing w with
  | nil => exact ⟨trivial, hFiles hStart⟩
  | cons event events ih =>
    obtain ⟨hNext, hFollow⟩ := stored_step hCow hStart hCareful.1
    obtain ⟨hAlong, hEnd⟩ := ih _ hNext hCareful.2
    exact ⟨⟨⟨hFiles hStart, hFollow⟩, hAlong⟩, hEnd⟩

/-- Empty trees, and the directory for tombstones. -/
def emptyMount : HostFs := fsOf [⟨.alias, [tombstoneDir], .dir, 0o755, []⟩]

/-- A host that hands out the number 50 whenever nothing refers to it. -/
def reusingEnv : Env := { sampleEnv with pick := fun _ => 50 }

/-- A request during which no call fails. -/
def smoothly (request : Request) : StoreEvent := .request (fun _ => none) request

theorem emptyMount_inos {loc : Loc} {node : Node} (h : emptyMount.get loc = some node) :
    (loc.root = .backing ∧ node = ⟨.dir, 1⟩) ∨ (loc = ⟨.cow, []⟩ ∧ node = ⟨.dir, 2⟩) ∨
      (loc.root = .alias ∧ (node = ⟨.dir, 3⟩ ∨ node = ⟨.dir, 10⟩)) := by
  obtain ⟨root, p⟩ := loc
  have hDom := (emptyMount.tree root).mem_dom p node h
  match root with
  | .backing =>
    obtain rfl : p = [] := List.mem_singleton.mp hDom
    exact .inl ⟨rfl, (some.inj h).symm⟩
  | .cow =>
    obtain rfl : p = [] := List.mem_singleton.mp hDom
    exact .inr (.inl ⟨rfl, (some.inj h).symm⟩)
  | .alias =>
    have hMem : p ∈ [[tombstoneDir], []] := hDom
    rcases List.mem_pair.mp hMem with rfl | rfl
    · have hNode : emptyMount.get ⟨.alias, [tombstoneDir]⟩ = some ⟨.dir, 10⟩ := by decide +kernel
      exact .inr (.inr ⟨rfl, .inr (some.inj (h.symm.trans hNode))⟩)
    · have hNode : emptyMount.get ⟨.alias, []⟩ = some ⟨.dir, 3⟩ := by decide +kernel
      exact .inr (.inr ⟨rfl, .inl (some.inj (h.symm.trans hNode))⟩)

theorem separate_emptyMount : Separate emptyMount := by
  refine ⟨?_, fun p node hNode => ?_⟩
  · rintro loc node hRoot hNode ⟨p, other, hOther, hIno⟩
    rcases emptyMount_inos hOther with ⟨-, rfl⟩ | ⟨h, -⟩ | ⟨h, -⟩
    · rcases emptyMount_inos hNode with ⟨h, -⟩ | ⟨-, rfl⟩ | ⟨-, rfl | rfl⟩
      · exact hRoot h
      all_goals cases hIno
    all_goals cases h
  · rcases emptyMount_inos hNode with ⟨h, -⟩ | ⟨h, -⟩ | ⟨-, rfl | rfl⟩
    · cases h
    · cases h
    all_goals decide

theorem tidy_emptyMount : Tidy reusingEnv emptyMount where
  live ino h := absurd rfl h
  apart p loc node other hRoot hNode hOther hIno := by
    rcases emptyMount_inos hNode with ⟨h, -⟩ | ⟨-, rfl⟩ | ⟨h, -⟩
    · cases h
    · rcases emptyMount_inos hOther with ⟨-, rfl⟩ | ⟨rfl, -⟩ | ⟨-, rfl | rfl⟩
      · cases hIno
      · exact hRoot rfl
      all_goals cases hIno
    · cases h
  dirs p q node other hNode hOther _ _ := by
    rcases emptyMount_inos hNode with ⟨h, -⟩ | ⟨hp, -⟩ | ⟨h, -⟩
    · cases h
    · rcases emptyMount_inos hOther with ⟨h, -⟩ | ⟨hq, -⟩ | ⟨h, -⟩
      · cases h
      · exact congrArg Loc.path (hp.trans hq.symm)
      · cases h
    · cases h

/-- A file with an attribute gets a second name and loses the first, and a directory without
attributes is removed and made again. -/
def linkedFile : List StoreEvent :=
  [smoothly (.create [nameOf "f"] 0o644 0o2 superuser),
    smoothly (.setxattr [nameOf "f"] (nameOf "user.a") [1] xattrCreate),
    smoothly (.link [nameOf "f"] [nameOf "g"] superuser),
    smoothly (.unlink [nameOf "f"] superuser), .restart,
    smoothly (.mkdir [nameOf "d"] 0o755 superuser), smoothly (.rmdir [nameOf "d"] superuser),
    smoothly (.mkdir [nameOf "d"] 0o755 superuser),
    smoothly (.getxattr [nameOf "g"] (nameOf "user.a") 1)]

theorem attributes_belong_to_linked_file :
    (storedTable reusingEnv (Runs.run (storeStep reusingEnv) linkedFile (started emptyMount)).fs
      50).lookup (nameOf "user.a") = some [1] ∧
    StoreOfFiles reusingEnv (Runs.run (storeStep reusingEnv) linkedFile (started emptyMount)) := by
  have hAway : ∀ {fs : HostFs} {names : List Name}, manifestDir ∉ names →
      ∀ path ∈ names.map ([·]), LeavesManifests fs path := by
    intro fs names hNames path hMem
    obtain ⟨name, hName, rfl⟩ := List.mem_map.mp hMem
    refine ⟨fun hHead => hNames ?_, fs.straight_singleton name⟩
    rwa [← Option.some.inj hHead]
  have hF := fun fs => @hAway fs [nameOf "f"] (by decide +kernel)
  have hD := fun fs => @hAway fs [nameOf "d"] (by decide +kernel)
  have hAbsent : ∀ {o : Option Node} {φ : Node → Prop}, o = none →
      ∀ node, o = some node → φ node := by
    intro o φ h node hNode
    rw [h] at hNode
    cases hNode
  have hBlank : ∀ {fs : HostFs} {o : Option Node}, o = some ⟨.dir, 52⟩ →
      (manifestAt reusingEnv fs 52).isNone = true →
      ∀ node, o = some node → storedTable reusingEnv fs node.ino = ∅ := by
    intro fs o h hNone node hNode
    rw [h] at hNode
    cases hNode
    rw [storedTable, isNone_iff_eq_none.mp hNone]
    rfl
  refine ⟨by decide +kernel,
    (attributes_belong_to_files rfl separate_emptyMount tidy_emptyMount ?_).2⟩
  exact ⟨⟨hF _, hAbsent (by decide +kernel), fun _ => hAbsent (by decide +kernel)⟩,
    ⟨hF _, hAbsent (by decide +kernel), fun h => absurd h (by decide +kernel)⟩,
    ⟨@hAway _ [nameOf "f", nameOf "g"] (by decide +kernel), hAbsent (by decide +kernel)⟩,
    ⟨hF _, .inl fun _ => rfl⟩, trivial, ⟨hD _, fun _ => hAbsent (by decide +kernel)⟩,
    ⟨hD _, hBlank (by decide +kernel) (by decide +kernel)⟩,
    ⟨hD _, fun _ => hAbsent (by decide +kernel)⟩,
    ⟨fun _ hMem => absurd hMem List.not_mem_nil, trivial⟩, trivial⟩

/-- A directory that is made again under the number of the one before has its attributes. -/
theorem attributes_outlive_directory :
    let path := [nameOf "d"]
    let again := smoothly (.mkdir path 0o755 superuser)
    let w := Runs.run (storeStep reusingEnv)
      [again, smoothly (.setxattr path (nameOf "user.a") [1] 0), smoothly (.rmdir path superuser)]
      (started emptyMount)
    let w' := storeStep reusingEnv again w
    resolve reusingEnv w.fs path = none ∧ w'.fs.get ⟨.cow, path⟩ = some ⟨.dir, 50⟩ ∧
      (storedTable reusingEnv w'.fs 50).lookup (nameOf "user.a") = some [1] ∧
      ¬ Faithful reusingEnv again w := by
  intro path again w w'
  have hHidden : resolve reusingEnv w.fs path = none := by decide +kernel
  have hMade : w'.fs.get ⟨.cow, path⟩ = some ⟨.dir, 50⟩ := by decide +kernel
  have hStale : (storedTable reusingEnv w'.fs 50).lookup (nameOf "user.a") = some [1] := by
    decide +kernel
  refine ⟨hHidden, hMade, hStale, fun hFollow => ?_⟩
  have hEmpty : storedTable reusingEnv w'.fs 50 = ∅ := hFollow.2 hHidden ⟨.dir, 50⟩ hMade
  rw [hEmpty] at hStale
  cases hStale

end FabricFs.Overlay
