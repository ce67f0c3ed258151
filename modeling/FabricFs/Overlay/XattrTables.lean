import FabricFs.Overlay.BackingUntouched
import Mathlib.Data.Finset.Card

/-!
# The tables of the attribute store

The store keeps a table of attributes per inode number, and the host hands a number out
again once nothing refers to it. `Tables` says that the cache and the manifests hold the
same tables, and that only the objects of the copy-on-write tree have any. The rules
`tables_*` follow the code from the host calls to the copies. A copy-up brings no attributes
along when the backing object has none but ACLs (`Bare`), which `held_*` says of the
copies of single objects and of trees.

* `Tables.purged`: what is left after the last name of an object is gone.
* `triple_updateTable`: what an update of one table changes.
* `held_copyUpTree`: the copies of bare objects change no table.
-/

namespace FabricFs.Overlay

open Lib Lib.Prog Server HostFs Option

/-! ## The invariant -/

/-- The store keeps the tables `T`, and the copies at the paths of `B` have no attributes. -/
structure Tables (env : Env) (T : Nat → XattrTable) (B : Set Path) (w : World) : Prop where
  cached : ∀ ino table, w.cache.lookup ino = some table → table = T ino
  stored : ∀ ino, storedTable env w.fs ino = T ino
  live : ∀ ino, T ino ≠ ∅ → ∃ p node, w.fs.get ⟨.cow, p⟩ = some node ∧ node.ino = ino
  apart : ∀ p loc node other, loc.root ≠ .cow → w.fs.get ⟨.cow, p⟩ = some node →
    w.fs.get loc = some other → node.ino ≠ other.ino
  dirs : ∀ p q node other, w.fs.get ⟨.cow, p⟩ = some node → w.fs.get ⟨.cow, q⟩ = some other →
    node.ino = other.ino → node.isDir = true → p = q
  blank : ∀ p ∈ B, ∀ node, w.fs.get ⟨.cow, p⟩ = some node → T node.ino = ∅

section Invariant

variable {env : Env} {T : Nat → XattrTable} {B : Set Path} {w : World}

variable {p src dst : Path} {loc : Loc} {node : Node} {fs' : HostFs}

theorem untimed_tables : Untimed (Tables env T B) :=
  fun _ _ h => ⟨h.cached, h.stored, h.live, h.apart, h.dirs, h.blank⟩

theorem free_tables (ino : Nat) : Free (Tables env T B) ino :=
  fun _ _ h => ⟨h.cached, h.stored, h.live, h.apart, h.dirs, h.blank⟩

theorem freeAt_tables (loc : Loc) (followLink : Bool) :
    FreeAt env (Tables env T B) loc followLink :=
  fun w node f h _ => free_tables node.ino w f h

theorem Tables.mono {B' : Set Path} (h : Tables env T B w) (hSub : B' ⊆ B) : Tables env T B' w :=
  ⟨h.cached, h.stored, h.live, h.apart, h.dirs, fun p hp => h.blank p (hSub hp)⟩

theorem Tables.forget (h : Tables env T B w) : Tables env T ∅ w := h.mono (Set.empty_subset B)

theorem Tables.insert (h : Tables env T B w)
    (hp : ∀ node, w.fs.get ⟨.cow, p⟩ = some node → T node.ino = ∅) :
    Tables env T (insert p B) w := by
  refine ⟨h.cached, h.stored, h.live, h.apart, h.dirs, ?_⟩
  rintro q (rfl | hq) node hNode
  · exact hp node hNode
  · exact h.blank q hq node hNode

/-- An object outside of the copy-on-write tree has no attributes. -/
theorem Tables.elsewhere (h : Tables env T B w) (hRoot : loc.root ≠ .cow)
    (hNode : w.fs.get loc = some node) : T node.ino = ∅ := by
  by_contra hSome
  obtain ⟨p, found, hFound, hIno⟩ := h.live _ hSome
  exact h.apart p loc found node hRoot hFound hNode hIno

theorem Tables.unused (h : Tables env T B w) {ino : Nat} (hIno : ino ∉ w.fs.inos) : T ino = ∅ := by
  by_contra hSome
  obtain ⟨p, node, hNode, rfl⟩ := h.live _ hSome
  exact hIno (w.fs.mem_inos hNode)

/-- The tables and the cache only matter together with the names. -/
theorem Tables.of_fields {w' : World} (h : Tables env T B w) (hFs : w'.fs = w.fs)
    (hCache : w'.cache = w.cache) : Tables env T B w' := by
  refine ⟨?_, ?_, ?_, ?_, ?_, ?_⟩
  · rw [hCache]
    exact h.cached
  all_goals rw [hFs]
  · exact h.stored
  · exact h.live
  · exact h.apart
  · exact h.dirs
  · exact h.blank

/-! ## Changes of names -/

/-- A new name, of an object that keeps to the copies or away from them. -/
theorem Tables.entered (h : Tables env T B w) (hE : HostFs.Entered w.fs loc node fs')
    (hApart : ∀ l found, w.fs.get l = some found → found.ino = node.ino → (l.root = .cow ↔ loc.root
      = .cow) ∧ node.isDir = false ∧ found.isDir = false)
    (hBlank : loc.root = .cow → loc.path ∈ B → T node.ino = ∅) :
    Tables env T B { w with fs := fs' } := by
  have hNew : ∀ {l found}, fs'.get l = some found →
      (l = loc ∧ found = node) ∨ w.fs.get l = some found := by
    intro l found hGet
    rw [hE.get_eq] at hGet
    split at hGet
    · rename_i hl
      cases hGet
      exact .inl ⟨hl, rfl⟩
    · exact .inr hGet
  refine ⟨h.cached, fun ino => ?_, fun ino hSome => ?_, ?_, ?_, ?_⟩
  · rw [← h.stored ino, storedTable, storedTable, manifestAt, manifestAt, hE.manifest_eq]
  · obtain ⟨p, found, hFound, hIno⟩ := h.live ino hSome
    refine ⟨p, found, ?_, hIno⟩
    change fs'.get ⟨.cow, p⟩ = some found
    rw [hE.get_eq, if_neg]
    · exact hFound
    · rintro rfl
      rw [hE.absent] at hFound
      cases hFound
  · intro p l found other hRoot hFound hOther hIno
    rcases hNew hFound with ⟨rfl, rfl⟩ | hFound
    · rcases hNew hOther with ⟨rfl, -⟩ | hOther
      · exact hRoot rfl
      · exact hRoot ((hApart l other hOther hIno.symm).1.mpr rfl)
    · rcases hNew hOther with ⟨rfl, rfl⟩ | hOther
      · exact hRoot ((hApart ⟨.cow, p⟩ found hFound hIno).1.mp rfl)
      · exact h.apart p l found other hRoot hFound hOther hIno
  · intro p q found other hFound hOther hIno hDir
    rcases hNew hFound with ⟨hp, rfl⟩ | hFound
    · rcases hNew hOther with ⟨hq, -⟩ | hOther
      · exact congrArg Loc.path (hp.trans hq.symm)
      · rw [(hApart _ other hOther hIno.symm).2.1] at hDir
        cases hDir
    · rcases hNew hOther with ⟨-, rfl⟩ | hOther
      · rw [(hApart _ found hFound hIno).2.2] at hDir
        cases hDir
      · exact h.dirs p q found other hFound hOther hIno hDir
  · intro p hp found hFound
    rcases hNew hFound with ⟨rfl, rfl⟩ | hFound
    · exact hBlank rfl hp
    · exact h.blank p hp found hFound

theorem Tables.made (h : Tables env T B w) {inode : Inode} (hm : Made w loc node inode fs') :
    Tables env T B { w with fs := fs' } := by
  have hFresh : node.ino ∉ w.fs.inos := fun hMem => hm.fresh (List.mem_append_left _ hMem)
  refine h.entered hm.entered (fun l found hFound hIno => ?_) (fun _ _ => h.unused hFresh)
  exact absurd (hIno ▸ w.fs.mem_inos hFound) hFresh

theorem Tables.linked (h : Tables env T ∅ w) (hSrc : w.fs.get ⟨.cow, src⟩ = some node)
    (hDir : node.isDir = false) (hRoot : loc.root = .cow) (hE : HostFs.Entered w.fs loc node fs') :
    Tables env T ∅ { w with fs := fs' } := by
  refine h.entered hE (fun l found hFound hIno => ?_) (fun _ hMem => hMem.elim)
  have hCow : l.root = .cow := by
    by_contra hCow
    exact h.apart src l node found hCow hSrc hFound hIno.symm
  obtain ⟨root, p⟩ := l
  obtain rfl : root = .cow := hCow
  refine ⟨by simp [hRoot], hDir, ?_⟩
  by_contra hFoundDir
  obtain rfl := h.dirs p src found node hFound hSrc hIno (by simpa using hFoundDir)
  rw [hSrc] at hFound
  cases hFound
  exact hFoundDir hDir

/-- A name is gone: its object has another one, or no attributes. -/
theorem Tables.removed (h : Tables env T B w) (hR : HostFs.Removed w.fs loc fs')
    (hLive : loc.root = .cow → ∀ node, w.fs.get loc = some node → T node.ino ≠ ∅ → ∃ q found, q ≠
      loc.path ∧ w.fs.get ⟨.cow, q⟩ = some found ∧ found.ino = node.ino) :
    Tables env T B { w with fs := fs' } := by
  have hOld : ∀ {l found}, fs'.get l = some found → w.fs.get l = some found := by
    intro l found hGet
    rw [hR.get_eq] at hGet
    split at hGet
    · cases hGet
    · exact hGet
  refine ⟨h.cached, fun ino => ?_, fun ino hSome => ?_,
    fun p l found other hRoot hf ho => h.apart p l found other hRoot (hOld hf) (hOld ho),
    fun p q found other hf ho => h.dirs p q found other (hOld hf) (hOld ho),
    fun p hp found hf => h.blank p hp found (hOld hf)⟩
  · rw [← h.stored ino, storedTable, storedTable, manifestAt, manifestAt, hR.manifest_eq]
  · have hStay : ∀ {p found}, (⟨.cow, p⟩ : Loc) ≠ loc → w.fs.get ⟨.cow, p⟩ = some found →
        fs'.get ⟨.cow, p⟩ = some found := by
      intro p found hNe hFound
      rw [hR.get_eq, if_neg hNe]
      exact hFound
    obtain ⟨p, node, hNode, rfl⟩ := h.live ino hSome
    by_cases hp : (⟨.cow, p⟩ : Loc) = loc
    · subst hp
      obtain ⟨q, found, hq, hFound, hIno⟩ := hLive rfl node hNode hSome
      refine ⟨q, found, hStay (fun he => hq (congrArg Loc.path he)) hFound, hIno⟩
    · exact ⟨p, node, hStay hp hNode, rfl⟩

/-- Where the entry of a path was before a move. -/
def movedFrom (src dst p q : Path) : Prop :=
  (∃ rest, p = dst ++ rest ∧ q = src ++ rest) ∨ (¬ dst <+: p ∧ ¬ src <+: p ∧ q = p)

theorem moved_eq_some {t : HostTree} (h : t.moved src dst p = some node) :
    ∃ q, movedFrom src dst p q ∧ t.get q = some node := by
  by_cases hDst : dst <+: p
  · obtain ⟨rest, rfl⟩ := hDst
    rw [Tree.moved_append] at h
    exact ⟨_, .inl ⟨rest, rfl, rfl⟩, h⟩
  · by_cases hSrc : src <+: p
    · obtain ⟨rest, rfl⟩ := hSrc
      rw [Tree.moved_source rest hDst] at h
      cases h
    · rw [Tree.moved_of_not_prefix hDst hSrc] at h
      exact ⟨p, .inr ⟨hDst, hSrc, rfl⟩, h⟩

theorem movedFrom_inj {p' q : Path} (h : movedFrom src dst p q) (h' : movedFrom src dst p' q) :
    p = p' := by
  rcases h with ⟨rest, rfl, rfl⟩ | ⟨-, hs, rfl⟩
  · rcases h' with ⟨rest', rfl, hq⟩ | ⟨-, hs', rfl⟩
    · rw [List.append_cancel_left hq]
    · exact absurd (List.prefix_append src rest) hs'
  · rcases h' with ⟨rest', rfl, rfl⟩ | ⟨-, -, rfl⟩
    · exact absurd (List.prefix_append src rest') hs
    · rfl

theorem Tables.relocated (h : Tables env T ∅ w) (hR : HostFs.Relocated w.fs .cow src dst fs')
    (hFree : w.fs.get ⟨.cow, dst⟩ = none) :
    Tables env T ∅ { w with fs := fs' } := by
  have hOld : ∀ {p found}, fs'.get ⟨.cow, p⟩ = some found →
      ∃ q, movedFrom src dst p q ∧ w.fs.get ⟨.cow, q⟩ = some found := by
    intro p found hGet
    rw [hR.get_eq] at hGet
    exact moved_eq_some hGet
  have hElse : ∀ {l : Loc}, l.root ≠ .cow → fs'.get l = w.fs.get l := by
    intro l hl
    rw [HostFs.get, hR.tree_eq l.root hl]
    rfl
  refine ⟨h.cached, fun ino => ?_, fun ino hSome => ?_, ?_, ?_, fun _ hp => hp.elim⟩
  · rw [← h.stored ino, storedTable, storedTable, manifestAt, manifestAt, hR.manifest_eq]
  · obtain ⟨p, node, hNode, hIno⟩ := h.live ino hSome
    by_cases hSrc : src <+: p
    · obtain ⟨rest, rfl⟩ := hSrc
      refine ⟨dst ++ rest, node, ?_, hIno⟩
      change fs'.get _ = _
      rw [hR.get_eq, Tree.moved_append]
      exact hNode
    · refine ⟨p, node, ?_, hIno⟩
      change fs'.get _ = _
      rw [hR.get_eq, Tree.moved_of_not_prefix _ hSrc]
      · exact hNode
      · rintro ⟨rest, rfl⟩
        rw [HostFs.get, Tree.get_append_eq_none hFree rest] at hNode
        cases hNode
  · intro p l found other hRoot hFound hOther
    obtain ⟨q, -, hq⟩ := hOld hFound
    rw [show ({ w with fs := fs' } : World).fs.get l = w.fs.get l from hElse hRoot] at hOther
    exact h.apart q l found other hRoot hq hOther
  · intro p p' found other hFound hOther hIno hDir
    obtain ⟨q, hq, hqGet⟩ := hOld hFound
    obtain ⟨q', hq', hqGet'⟩ := hOld hOther
    obtain rfl := h.dirs q q' found other hqGet hqGet' hIno hDir
    exact movedFrom_inj hq hq'

/-! ## Changes of tables -/

/-- The tables after one of them is replaced. -/
def setTable (T : Nat → XattrTable) (ino : Nat) (table : XattrTable) : Nat → XattrTable :=
  fun i => if i = ino then table else T i

@[simp] theorem setTable_self (ino : Nat) (table : XattrTable) : setTable T ino table ino = table :=
  if_pos rfl

theorem setTable_of_ne {i ino : Nat} (h : i ≠ ino) (table : XattrTable) :
    setTable T ino table i = T i := if_neg h

theorem storedTable_setManifest (hCow : env.layout.cowRoot = true) (fs : HostFs) (ino : Nat)
    (manifest : Option Manifest) (i : Nat) :
    storedTable env (fs.setManifest ino manifest) i =
      if i = ino then manifest.elim ∅ manifestTable else storedTable env fs i := by
  simp only [storedTable, manifestAt, hCow, if_true, setManifest]
  split <;> rfl

theorem Tables.loaded (h : Tables env T B w) (key : Nat) :
    Tables env T B { w with cache := w.cache.insert key (T key) } := by
  refine ⟨fun ino t hLookup => ?_, h.stored, h.live, h.apart, h.dirs, h.blank⟩
  rw [Dict.lookup_insert_eq] at hLookup
  split at hLookup
  · rename_i he
    rw [he]
    exact (some.inj hLookup).symm
  · exact h.cached ino t hLookup

/-- A new table of an object of the copies, in the manifest and in the cache. -/
theorem Tables.updated (hCow : env.layout.cowRoot = true) (h : Tables env T ∅ w)
    (hNode : w.fs.get ⟨.cow, p⟩ = some node) (table : XattrTable) :
    Tables env (setTable T node.ino table) ∅ { w with
      fs := w.fs.setManifest node.ino (some (.entries xattrVersion table))
      cache := w.cache.insert node.ino table } := by
  refine ⟨fun ino t hLookup => ?_, fun ino => ?_, fun ino hSome => ?_, h.apart, h.dirs,
    fun _ hp => hp.elim⟩
  · rw [Dict.lookup_insert_eq] at hLookup
    unfold setTable
    split at hLookup
    · rename_i he
      rw [if_pos he]
      exact (some.inj hLookup).symm
    · rename_i hne
      rw [if_neg hne]
      exact h.cached ino t hLookup
  · rw [storedTable_setManifest hCow, h.stored]
    unfold setTable
    split
    · simp [manifestTable]
    · rfl
  · by_cases hi : ino = node.ino
    · exact ⟨p, node, hNode, hi.symm⟩
    · rw [setTable_of_ne hi] at hSome
      exact h.live ino hSome

/-- The object whose name is gone has no attributes left, in the cache or in a manifest. -/
theorem Tables.purged (h : Tables env T B w) (hR : HostFs.Removed w.fs loc fs')
    (hNode : w.fs.get loc = some node) {w' : World} (hTree : w'.fs.tree = fs'.tree)
    (hStored : ∀ ino, storedTable env w'.fs ino = setTable T node.ino ∅ ino)
    (hCache : w'.cache = w.cache.erase node.ino) :
    Tables env (setTable T node.ino ∅) B w' := by
  have hGet : ∀ l, w'.fs.get l = if l = loc then none else w.fs.get l := by
    intro l
    rw [HostFs.get, hTree]
    exact hR.get_eq l
  have hOld : ∀ {l found}, w'.fs.get l = some found → w.fs.get l = some found := by
    intro l found hFound
    rw [hGet] at hFound
    split at hFound
    · cases hFound
    · exact hFound
  refine ⟨fun ino t hLookup => ?_, hStored, fun ino hSome => ?_,
    fun p l found other hRoot hf ho => h.apart p l found other hRoot (hOld hf) (hOld ho),
    fun p q found other hf ho => h.dirs p q found other (hOld hf) (hOld ho),
    fun p hp found hf => ?_⟩
  · rw [hCache, Dict.lookup_erase_eq] at hLookup
    split at hLookup
    · cases hLookup
    · rename_i hne
      rw [setTable_of_ne hne]
      exact h.cached ino t hLookup
  · by_cases hi : ino = node.ino
    · rw [hi, setTable_self] at hSome
      exact absurd rfl hSome
    · rw [setTable_of_ne hi] at hSome
      obtain ⟨p, found, hFound, rfl⟩ := h.live ino hSome
      refine ⟨p, found, ?_, rfl⟩
      rw [hGet, if_neg]
      · exact hFound
      · rintro rfl
        rw [hNode] at hFound
        cases hFound
        exact hi rfl
  · by_cases hi : found.ino = node.ino
    · rw [hi, setTable_self]
    · rw [setTable_of_ne hi]
      exact h.blank p hp found (hOld hf)

end Invariant

/-! ## Calls -/

section Calls

variable {env : Env} {T : Nat → XattrTable} {B : Set Path} {loc : Loc} {rel : Path}

theorem tables_makeNode (kind : Kind) (perm : Nat) (data : Bytes) :
    Keeps env (Tables env T B) (makeNode loc kind perm data) :=
  triple_makeNode untimed_tables fun _ _ _ hw _ hm => untimed_tables _ _ (hw.made hm)

theorem tables_createDir : Keeps env (Tables env T B) (createDir loc) :=
  keeps_createDir untimed_tables fun _ _ _ hw _ hm => hw.made hm

theorem creates_tables : Creates env (Tables env T B) loc :=
  creates_of untimed_tables (fun _ node _ _ => free_tables node.ino)
    fun _ node _ hw _ hm => ⟨hw.made hm, free_tables node.ino⟩

theorem tables_createDirAll : Keeps env (Tables env T B) (createDirAll loc) :=
  keeps_createDirAll fun _ _ => tables_createDir

theorem tables_clearTombstone : Keeps env (Tables env T B) (clearTombstone rel) :=
  keeps_clearTombstone untimed_tables fun _ => keeps_removeFile untimed_tables
    fun _ _ _ hw _ _ hR => hw.removed hR fun h => by cases h

theorem tables_markTombstone : Keeps env (Tables env T B) (markTombstone rel) :=
  keeps_markTombstone untimed_tables (fun _ => tables_createDir) fun _ => creates_tables.keeps

theorem tables_setPermissions (mode : Nat) : Keeps env (Tables env T B) (setPermissions loc mode) :=
  keeps_setPermissions untimed_tables (freeAt_tables loc true) mode

theorem tables_chown (uid gid : Nat) (followLink : Bool) :
    Keeps env (Tables env T B) (chown loc uid gid followLink) :=
  keeps_chown untimed_tables (freeAt_tables loc followLink) uid gid

/-! ## The store -/

theorem triple_loadTable {P : World → Prop} (hP : Untimed P) (hT : ∀ w, P w → Tables env T B w)
    (hLoad : ∀ w key, P w → P { w with cache := w.cache.insert key (T key) }) (key : Nat) :
    Triple env P (loadTable key) (fun table w => P w ∧ table = T key) P := by
  refine triple_bind (triple_imp triple_state (fun _ _ hw => hw)
    (fun _ hw => hw)) (fun found => ?_)
  cases found with
  | some table =>
    exact triple_pure fun w hw => ⟨hw.1, (hT w hw.1).cached key table hw.2.symm⟩
  | none =>
    have hManifest : Triple env (fun w => P w ∧ none = w.cache.lookup key) (loadManifest key)
        (fun table w => P w ∧ table = T key) P := by
      refine triple_bind (Q := fun found w => P w ∧ found.elim ∅ manifestTable = T key)
        (triple_conseq (triple_probe _) (fun _ hw => hw.1) (fun found w hw => ?_)
          (fun _ hw => hw)) (fun found => ?_)
      · exact ⟨hw.1, by rw [hw.2]; exact (hT w hw.1).stored key⟩
      · cases found with
        | none => exact triple_pure fun w hw => hw
        | some manifest =>
          refine triple_imp (P := fun w => P w ∧ manifestTable manifest = T key)
            (triple_fact fun hEq => (triple_query hP _).post (fun table w hw => ?_))
            (fun _ _ hw => hw)
            (fun _ hw => hw)
          obtain ⟨hw, n, hTable⟩ := hw
          exact ⟨hw, (Except.ok.inj hTable).symm.trans hEq⟩
    refine triple_learn hManifest (fun table hTable => ?_)
    subst hTable
    exact triple_bind (Q := fun _ => P) (fun w hw => hLoad w key hw)
      (fun _ => triple_pure fun w hw => ⟨hw, rfl⟩)

theorem tables_loadTable (key : Nat) : Keeps env (Tables env T B) (loadTable key) :=
  Triple.post
    (triple_loadTable untimed_tables (fun _ hw => hw) (fun _ key hw => hw.loaded key) key)
    (fun _ _ hw => hw.1)

/-- The table of an object of the copies is replaced, unless a call fails before. -/
theorem triple_persist (hCow : env.layout.cowRoot = true) {node : Node} (table : XattrTable) :
    Triple env (fun w => Tables env T ∅ w ∧ w.fs.get ⟨.cow, rel⟩ = some node)
      (persist node.ino table)
      (fun _ w => Tables env (setTable T node.ino table) ∅ w ∧
        w.cache.lookup node.ino = some table ∧ w.fs.get ⟨.cow, rel⟩ = some node)
      (Tables env T ∅) := by
  have hU : Untimed (fun w => Tables env T ∅ w ∧ w.fs.get ⟨.cow, rel⟩ = some node) :=
    fun w n hw => ⟨untimed_tables w n hw.1, hw.2⟩
  refine triple_ask ?_
  rw [hCow]
  refine triple_bind (Q := fun _ w => ∃ w₀ : World, (Tables env T ∅ w₀ ∧
      w₀.fs.get ⟨.cow, rel⟩ = some node) ∧ ∃ n, w = { w₀ with
        fs := w₀.fs.setManifest node.ino (some (.entries xattrVersion table)), calls := n })
    ?_ (fun _ w hw => ?_)
  · refine triple_seq ((keeps_query hU _).weaken fun _ hw => hw.1) <|
      triple_then ((keeps_query hU _).weaken fun _ hw => hw.1) ?_
    refine (triple_update hU fun w _ fs hw hf => ?_).weaken (fun _ hw => hw.1)
    cases hf
    exact ⟨w, hw, _, rfl⟩
  · obtain ⟨w₀, hw₀, n, rfl⟩ := hw
    refine ⟨untimed_tables _ _ (hw₀.1.updated hCow hw₀.2 table), ?_, hw₀.2⟩
    change (w₀.cache.insert node.ino table).lookup node.ino = some table
    rw [Dict.lookup_insert_eq, if_pos rfl]

/-- An update changes the table of one object, and none when it fails. -/
theorem triple_updateTable (hCow : env.layout.cowRoot = true) {node : Node}
    (f : XattrTable → Except Errno XattrTable) :
    Triple env (fun w => Tables env T ∅ w ∧ w.fs.get ⟨.cow, rel⟩ = some node)
      (updateTable node.ino f)
      (fun _ w => ∃ table, f (T node.ino) = .ok table ∧ Tables env (setTable T node.ino table) ∅ w ∧
        w.cache.lookup node.ino = some table ∧ w.fs.get ⟨.cow, rel⟩ = some node)
      (Tables env T ∅) := by
  have hU : Untimed (fun w => Tables env T ∅ w ∧ w.fs.get ⟨.cow, rel⟩ = some node) :=
    fun w n hw => ⟨untimed_tables w n hw.1, hw.2⟩
  refine triple_learn ((triple_loadTable hU (fun _ hw => hw.1)
    (fun w key hw => ⟨hw.1.loaded key, hw.2⟩) node.ino).weaken fun _ hw => hw.1)
    (fun current hCurrent => ?_)
  subst hCurrent
  refine triple_learn (triple_result fun _ hw => hw.1) (fun table hTable => ?_)
  exact (triple_persist hCow table).post (fun _ _ hw => ⟨table, hTable, hw⟩)

theorem stable_tables : Stable env (Tables env T B) where
  untimed := untimed_tables
  loaded := tables_loadTable
  locked _ _ _ h _ := h.of_fields rfl rfl
  released _ _ h := h.of_fields rfl rfl
  sought _ _ _ _ h _ := h.of_fields rfl rfl

end Calls

/-! ## The last name of an object -/

section LastName

variable {fs : HostFs} {env : Env} {T : Nat → XattrTable} {B : Set Path} {rel : Path}

variable {p : Path} {node : Node}

/-- The names of an inode in a tree. -/
def namesOf (t : HostTree) (ino : Nat) : Finset Path :=
  t.dom.toFinset.filter (fun p => (t.get p).any (fun node => node.ino == ino))

theorem mem_namesOf {t : HostTree} {ino : Nat} :
    p ∈ namesOf t ino ↔ ∃ node, t.get p = some node ∧ node.ino = ino := by
  simp only [namesOf, Finset.mem_filter, List.mem_toFinset, any_eq_true, beq_iff_eq,
    and_iff_right_iff_imp]
  rintro ⟨node, hNode, -⟩
  exact t.mem_dom p node hNode

theorem linkCount_eq (ino : Nat) : fs.linkCount ino =
    (namesOf (fs.tree .backing) ino).card + (namesOf (fs.tree .cow) ino).card +
      (namesOf (fs.tree .alias) ino).card := by
  have hTree : ∀ t : HostTree,
      t.dom.dedup.countP (fun p => (t.get p).any (fun node => node.ino == ino)) =
        (namesOf t ino).card := by
    intro t
    rw [List.countP_eq_length_filter, ← List.toFinset_card_of_nodup ((List.nodup_dedup _).filter _)]
    congr 1
    ext p
    simp [namesOf]
  simp only [linkCount, List.map_cons, List.map_nil, List.sum_cons, List.sum_nil, hTree]
  omega

theorem two_le_linkCount {q : Path} {other : Node} (hNe : p ≠ q) (hp : fs.get ⟨.cow, p⟩ = some node)
    (hq : fs.get ⟨.cow, q⟩ = some other) (hIno : node.ino = other.ino) :
    2 ≤ fs.linkCount other.ino := by
  have hCard : 1 < (namesOf (fs.tree .cow) other.ino).card :=
    Finset.one_lt_card.mpr ⟨p, mem_namesOf.mpr ⟨node, hp, hIno⟩, q,
      mem_namesOf.mpr ⟨other, hq, rfl⟩, hNe⟩
  rw [linkCount_eq]
  omega

/-- An object with more than one name has another one among the copies. -/
theorem Tables.other_name {w : World} (h : Tables env T B w)
    (hNode : w.fs.get ⟨.cow, p⟩ = some node) (hCount : 1 < w.fs.linkCount node.ino) :
    ∃ q found, q ≠ p ∧ w.fs.get ⟨.cow, q⟩ = some found ∧ found.ino = node.ino := by
  have hNone : ∀ root, root ≠ .cow → namesOf (w.fs.tree root) node.ino = ∅ := by
    intro root hRoot
    refine Finset.eq_empty_of_forall_notMem fun q hq => ?_
    obtain ⟨found, hFound, hIno⟩ := mem_namesOf.mp hq
    exact h.apart p ⟨root, q⟩ node found hRoot hNode hFound hIno.symm
  rw [linkCount_eq, hNone .backing (by simp), hNone .alias (by simp), Finset.card_empty,
    Nat.zero_add, Nat.add_zero] at hCount
  obtain ⟨q, hq, hNe⟩ := Finset.exists_mem_ne hCount p
  obtain ⟨found, hFound, hIno⟩ := mem_namesOf.mp hq
  exact ⟨q, found, hNe, hFound, hIno⟩

/-- No copy has the inode. -/
def Nameless (fs : HostFs) (ino : Nat) : Prop :=
  ∀ p node, fs.get ⟨.cow, p⟩ = some node → node.ino ≠ ino

/-- The tables `T`, of which those without an object may be gone. -/
def Lost (env : Env) (T : Nat → XattrTable) (B : Set Path) (w : World) : Prop :=
  ∃ T', Tables env T' B w ∧ ∀ ino, T' ino = T ino ∨ Nameless w.fs ino

theorem Tables.lost {w : World} (h : Tables env T B w) : Lost env T B w :=
  ⟨T, h, fun _ => .inl rfl⟩

/-- A name has been removed, and all other names are as they were. -/
def Unnamed (env : Env) (fs : HostFs) (rel : Path) (T : Nat → XattrTable) (B : Set Path)
    (w : World) : Prop :=
  Lost env T B w ∧ ∀ l, w.fs.get l = if l = ⟨.cow, rel⟩ then none else fs.get l

/-- Nothing keeps the table of the object at a path from going with its last name: no call
fails, or there is no table. -/
def Purgeable (env : Env) (T : Nat → XattrTable) (fs : HostFs) (rel : Path) : Prop :=
  (∀ k, env.fault k = none) ∨ ∀ node, fs.get ⟨.cow, rel⟩ = some node → T node.ino = ∅

theorem triple_purge (hCow : env.layout.cowRoot = true) {w₁ : World} {fs' : HostFs}
    (hTables : Tables env T B w₁) (hNode : w₁.fs.get ⟨.cow, rel⟩ = some node)
    (hRemoved : HostFs.Removed w₁.fs ⟨.cow, rel⟩ fs') (hPurge : Purgeable env T w₁.fs rel) :
    Triple env (fun w => w.fs = fs' ∧ w.cache = w₁.cache) (purgeIfLastLink (w₁.fs.metaOf node))
      (fun _ => Unnamed env w₁.fs rel T B) (fun _ => False) := by
  have hNames : ∀ {w : World}, w.fs.tree = fs'.tree →
      ∀ l, w.fs.get l = if l = ⟨.cow, rel⟩ then none else w₁.fs.get l := by
    intro w hTree l
    rw [HostFs.get, hTree]
    exact hRemoved.get_eq l
  refine triple_ite (fun hMore => triple_pure fun w hw => ?_) (fun hLast w hw => ?_)
  · -- another name keeps the object alive
    obtain ⟨hCount, hKind⟩ := hMore
    have hDir : node.isDir = false := by
      simpa [Node.isDir, metaOf] using hKind
    have hCount : 1 < w₁.fs.linkCount node.ino := by
      simpa [metaOf, hDir] using hCount
    refine ⟨Tables.lost ?_, hNames (congrArg tree hw.1)⟩
    refine (hTables.removed hRemoved fun _ found hFound _ => ?_).of_fields hw.1 hw.2
    rw [hNode] at hFound
    cases hFound
    exact hTables.other_name hNode hCount
  · have hOnly : ∀ p found, w₁.fs.get ⟨.cow, p⟩ = some found → found.ino = node.ino → p = rel := by
      intro p found hFound hIno
      cases hDir : node.isDir with
      | true => exact (hTables.dirs rel p node found hNode hFound hIno.symm hDir).symm
      | false =>
        have hKind : node.kind ≠ .dir := by simpa [Node.isDir] using hDir
        simp only [metaOf, hDir, Bool.false_eq_true, if_false, not_and, gt_iff_lt, not_not] at hLast
        by_contra hNe
        exact hKind (hLast (two_le_linkCount hNe hFound hNode hIno))
    have hDone : ∀ w' : World, w'.fs.tree = fs'.tree → w'.cache = w₁.cache.erase node.ino →
        (∀ ino, storedTable env w'.fs ino = setTable T node.ino ∅ ino) →
        Unnamed env w₁.fs rel T B w' := by
      intro w' hTree hCache hStored
      refine ⟨⟨_, hTables.purged hRemoved hNode hTree hStored hCache, fun ino => ?_⟩, hNames hTree⟩
      by_cases hi : ino = node.ino
      · refine .inr fun p found hFound hIno => ?_
        rw [hNames hTree] at hFound
        split at hFound
        · cases hFound
        · rename_i hNe
          exact hNe (by rw [hOnly p found hFound (hIno.trans hi)])
      · exact .inl (setTable_of_ne hi _)
    have hOther : ∀ ino, storedTable env fs' ino = T ino := by
      intro ino
      rw [← hTables.stored ino, storedTable, storedTable, manifestAt, manifestAt,
        hRemoved.manifest_eq]
    -- a manifest that stays has an empty table
    have hKept : T node.ino = ∅ → ∀ ino, storedTable env fs' ino = setTable T node.ino ∅ ino := by
      intro hEmpty ino
      rw [hOther]
      by_cases hi : ino = node.ino
      · rw [hi, setTable_self, hEmpty]
      · rw [setTable_of_ne hi]
    obtain ⟨rfl, hCache⟩ := hw
    have hErase : (w.cache.erase (w₁.fs.metaOf node).ino) = w₁.cache.erase node.ino := by
      rw [hCache]
      rfl
    simp only [change_bind_run, probe_bind_run]
    cases hManifest : manifestAt env w.fs (w₁.fs.metaOf node).ino with
    | none =>
      refine hDone _ rfl hErase (hKept ?_)
      rw [← hOther, storedTable, show manifestAt env w.fs node.ino = none from hManifest]
      rfl
    | some manifest =>
      simp only [onlyIf, isSome_some, if_true, tryCatch_run, update]
      cases hFault : env.fault w.calls with
      | some fault =>
        refine hDone _ rfl hErase (hKept ?_)
        rcases hPurge with hNever | hEmpty
        · rw [hNever] at hFault
          cases hFault
        · exact hEmpty node hNode
      | none =>
        refine hDone _ rfl hErase fun ino => ?_
        change storedTable env (w.fs.setManifest node.ino none) ino = _
        rw [storedTable_setManifest hCow]
        unfold setTable
        split
        · rfl
        · exact hOther ino

theorem triple_removal {P : World → Prop} (hP : Untimed P) {loc : Loc} {x : Op Unit}
    (hx : x = removeFile loc ∨ x = removeDir loc) :
    Triple env P x (fun _ w => ∃ w₁ fs', P w₁ ∧ HostFs.Removed w₁.fs loc fs' ∧
      w.fs = fs' ∧ w.cache = w₁.cache) P := by
  rcases hx with rfl | rfl
  · refine triple_update hP fun w _ fs' hw hf => ?_
    obtain ⟨fs'', hRemove, hEq⟩ := map_eq_ok.mp hf
    cases hEq
    obtain ⟨-, -, -, hR⟩ := removeFile_ok hRemove
    exact ⟨w, _, hw, hR, rfl, rfl⟩
  · refine triple_update hP fun w _ fs' hw hf => ?_
    obtain ⟨fs'', hRemove, hEq⟩ := map_eq_ok.mp hf
    cases hEq
    obtain ⟨-, -, -, hR⟩ := removeDir_ok hRemove
    exact ⟨w, _, hw, hR, rfl, rfl⟩

/-- A name goes, and with the last one the attributes. -/
theorem triple_unname (hCow : env.layout.cowRoot = true) (hNode : fs.get ⟨.cow, rel⟩ = some node)
    (hPurge : Purgeable env T fs rel) {x : Op Unit}
    (hx : x = removeFile ⟨.cow, rel⟩ ∨ x = removeDir ⟨.cow, rel⟩) :
    Triple env (fun w => Tables env T B w ∧ w.fs = fs) (do
      x
      purgeIfLastLink (fs.metaOf node)) (fun _ => Unnamed env fs rel T B) (Lost env T B) := by
  have hU : Untimed (fun w => Tables env T B w ∧ w.fs = fs) :=
    fun w n hw => ⟨untimed_tables w n hw.1, hw.2⟩
  refine triple_bind ((triple_removal hU hx).weaken fun _ hw => hw.1.lost) (fun _ w hw => ?_)
  obtain ⟨w₁, fs', ⟨hTables, rfl⟩, hRemoved, hFs, hCache⟩ := hw
  exact (triple_purge hCow hTables hNode hRemoved hPurge).weaken (fun _ h => h.elim) w ⟨hFs, hCache⟩

end LastName

/-! ## Changes outside of the copies -/

section Aside

variable {env : Env} {I : World → Prop} {T : Nat → XattrTable} {B : Set Path} {rel : Path}

/-- Only the names of the copies and the tables matter. -/
def OfCopies (env : Env) (I : World → Prop) : Prop :=
  ∀ w w', (∀ p, w'.fs.get ⟨.cow, p⟩ = w.fs.get ⟨.cow, p⟩) →
    (∀ T B, Tables env T B w → Tables env T B w') → I w → I w'

theorem ofCopies_lost : OfCopies env (Lost env T B) := by
  rintro w w' hGet hTables ⟨T', hw, hLost⟩
  refine ⟨T', hTables _ _ hw, fun ino => (hLost ino).imp_right fun hNone p node hNode => ?_⟩
  rw [hGet] at hNode
  exact hNone p node hNode

variable (hI : OfCopies env I)

include hI

theorem OfCopies.untimed : Untimed I :=
  fun w n hw => hI w _ (fun _ => rfl) (fun _ _ h => untimed_tables w n h) hw

theorem OfCopies.free (ino : Nat) : Free I ino :=
  fun w f hw => hI w _ (fun _ => rfl) (fun _ _ h => free_tables ino w f h) hw

theorem OfCopies.made {w : World} {loc : Loc} {node : Node} {inode : Inode} {fs' : HostFs}
    (hw : I w) (hm : Made w loc node inode fs') (hRoot : loc.root ≠ .cow) :
    I { w with fs := fs' } := by
  refine hI w _ (fun p => (hm.entered.get_eq _).trans (if_neg ?_)) (fun _ _ h => h.made hm) hw
  rintro rfl
  exact hRoot rfl

theorem OfCopies.removed {w : World} {loc : Loc} {fs' : HostFs} (hw : I w)
    (hR : HostFs.Removed w.fs loc fs') (hRoot : loc.root ≠ .cow) : I { w with fs := fs' } := by
  refine hI w _ (fun p => (hR.get_eq _).trans (if_neg ?_))
    (fun _ _ h => h.removed hR fun hr => absurd hr hRoot) hw
  rintro rfl
  exact hRoot rfl

theorem OfCopies.clearTombstone : Keeps env I (clearTombstone rel) :=
  keeps_clearTombstone hI.untimed fun _ => keeps_removeFile hI.untimed
    fun _ _ _ hw _ _ hR => hI.removed hw hR (by simp)

theorem OfCopies.markTombstone : Keeps env I (markTombstone rel) :=
  keeps_markTombstone hI.untimed
    (fun _ => keeps_createDir hI.untimed fun _ _ _ hw _ hm => hI.made hw hm (by simp))
    fun _ => (creates_of hI.untimed (fun _ node _ _ => hI.free node.ino)
      fun _ node _ hw _ hm => ⟨hI.made hw hm (by simp), hI.free node.ino⟩).keeps

theorem OfCopies.rewritePaths (source target : Path) : Keeps env I (rewritePaths source target) :=
  keeps_change fun w hw => hI w _ (fun _ => rfl) (fun _ _ h => h.of_fields rfl rfl) hw

end Aside

/-! ## Copies of objects without attributes -/

section Copies

variable {env : Env} {fs₀ : HostFs} {T : Nat → XattrTable} {B : Set Path} {S : Set Path}
  {rel : Path}

variable {followLink : Bool} {src : Loc} {info : Meta}

/-- The backing object of a path has no attributes that a copy-up would bring along. -/
def Bare (fs : HostFs) (rel : Path) : Prop :=
  ∀ node, fs.get ⟨.backing, rel⟩ = some node →
    ∀ name ∈ (fs.inode node.ino).xattrs.keys, isAclName name = true ∨ ¬ Utf8 name

/-- The backing tree is as it was, and the store keeps its tables. -/
def Held (env : Env) (fs₀ : HostFs) (S : Set Path) (T : Nat → XattrTable) (B : Set Path)
    (w : World) : Prop :=
  Guarded fs₀ S w ∧ Tables env T B w

theorem untimed_held : Untimed (Held env fs₀ S T B) :=
  fun w n h => ⟨untimed_guarded w n h.1, untimed_tables w n h.2⟩

theorem readXattrs_of_acls (loc : Loc) (followLink : Bool) {names : List Bytes}
    (h : ∀ name ∈ names, isAclName name = true) (table : XattrTable) :
    readXattrs loc followLink names table = pure table := by
  induction names with
  | nil => rfl
  | cons name names ih =>
    rw [readXattrs, if_pos (h name List.mem_cons_self)]
    exact ih fun n hn => h n (List.mem_cons_of_mem _ hn)

theorem triple_listXattrNames {P : World → Prop} (hP : Untimed P) {loc : Loc}
    (hBare : ∀ w node, P w → nodeAt env w.fs loc followLink = .ok node → ∀ name ∈ (w.fs.inode
      node.ino).xattrs.keys, isAclName name = true ∨ ¬ Utf8 name) :
    Triple env P (listXattrNames loc followLink)
      (fun names w => P w ∧ ∀ name ∈ names, isAclName name = true) P := by
  refine triple_tryCatch (M := P) ?_ (fun e => triple_if
    (triple_pure fun w hw => ⟨hw, fun _ h => nomatch h⟩)
    (triple_thrown))
  refine triple_bind (keeps_query hP _) (fun sized => triple_if
    (triple_pure fun w hw => ⟨hw, fun _ h => nomatch h⟩) ?_)
  refine triple_bind (triple_query hP _) (fun names => triple_pure fun w hw => ?_)
  obtain ⟨hw, n, hNames⟩ := hw
  obtain ⟨node, hNode, rfl⟩ := map_eq_ok.mp hNames
  refine ⟨hw, fun name hName => ?_⟩
  obtain ⟨hMem, hUtf8⟩ := List.mem_filter.mp hName
  exact (hBare w node hw hNode name hMem).resolve_right (not_not.mpr (of_decide_eq_true hUtf8))

/-- An object whose attributes are all ACLs gives its copy no attributes. -/
theorem keeps_seedXattrs_of_bare {P : World → Prop} (hP : Untimed P) {dst : Loc}
    (hBare : ∀ w node, P w → nodeAt env w.fs src followLink = .ok node → ∀ name ∈ (w.fs.inode
      node.ino).xattrs.keys, isAclName name = true ∨ ¬ Utf8 name) :
    Keeps env P (seedXattrs src dst followLink) := by
  refine keeps_bind (keeps_symlinkMetadata hP _) (fun info =>
    keeps_bind (keeps_probe _) (fun persisted => keeps_if (keeps_pure _) ?_))
  refine triple_bind (Q := fun values w => P w ∧ values = ∅)
    (triple_learn (triple_listXattrNames hP hBare) (fun names hAcls => ?_))
    (fun values => triple_fact fun hEmpty => ?_)
  · rw [readXattrs_of_acls _ _ hAcls]
    exact triple_pure fun w hw => ⟨hw, rfl⟩
  · subst hEmpty
    exact keeps_ite (fun _ => keeps_pure _) (fun h => absurd rfl h)

/-- A bare object gives its copy no attributes. -/
theorem held_seedXattrs (hBare : Bare fs₀ rel) {dst : Loc}
    (hPlain : followLink = true → ∀ node, fs₀.get ⟨.backing, rel⟩ = some node → node.kind ≠
      .symlink) :
    Keeps env (Held env fs₀ S T B) (seedXattrs ⟨.backing, rel⟩ dst followLink) := by
  refine keeps_seedXattrs_of_bare untimed_held fun w node hw hNode => ?_
  have hGet : fs₀.get ⟨.backing, rel⟩ = some node := by
    rw [← hw.1.get_backing]
    cases hg : w.fs.get ⟨.backing, rel⟩ with
    | none =>
      cases followLink <;>
        simp [nodeAt, followNode, follow, followAux, lookup, hg] at hNode
    | some found =>
      cases hf : followLink with
      | false =>
        rw [nodeAt, hf, if_neg (by simp), lookup, hg, Except.ok.injEq] at hNode
        rw [hNode]
      | true =>
        rw [nodeAt, hf, if_pos rfl, followNode_of_not_symlink hg (hPlain hf found
          (by rw [← hw.1.get_backing]; exact hg)), Except.ok.injEq] at hNode
        rw [hNode]
  rw [hw.1.inode_eq node.ino ⟨rel, node, hGet, rfl⟩]
  exact hBare node hGet

theorem held_link_of_uncopied (hBare : Bare fs₀ rel) (hk : info.kind = .symlink) :
    Copies env rel (Held env fs₀ ∅ T B) (fun _ => Held env fs₀ ∅ T B) (Held env fs₀ ∅ T B) info
      (copyObject copyLink rel info false) := by
  refine Triple.pre (P := Held env fs₀ ∅ T B) ?_ (fun _ hw => hw.1)
  refine keeps_seq (keeps_and guarded_parents tables_createDirAll) (keeps_seq
    (keeps_and ?_ ?_) (held_seedXattrs hBare (fun h => by cases h)))
  · exact keeps_copyLink untimed_guarded _ hk (guarded_makeSymlink (by simp)
      (not_noLink (Set.notMem_empty _))) (freeAt_guarded_link (by simp))
  · exact keeps_copyLink untimed_tables _ hk (fun _ =>
      keeps_makeSymlink untimed_tables fun _ _ _ hw _ hm => hw.made hm) (freeAt_tables _ _)

theorem Held.plain_of_uncopied {w : World} (hw : Held env fs₀ S T B w)
    (hu : Uncopied env rel info w) (hk : info.kind ≠ .symlink) :
    ∀ node, fs₀.get ⟨.backing, rel⟩ = some node → node.kind ≠ .symlink := by
  obtain ⟨-, -, node, hNode, rfl⟩ := hu
  intro found hFound
  rw [← hw.1.get_backing, hNode] at hFound
  cases hFound
  exact hk

/-- The copy of an object that is no link, whose path is then known to hold none. -/
theorem held_plain_of_uncopied (hk : info.kind ≠ .symlink) {x : Op Unit}
    (hx : (∀ node, fs₀.get ⟨.backing, rel⟩ = some node → node.kind ≠ .symlink) → Keeps env (Held
      env fs₀ (insert rel ∅) T B) x) :
    Triple env (fun w => Held env fs₀ ∅ T B w ∧ Uncopied env rel info w) x
      (fun _ => Held env fs₀ ∅ T B) (Held env fs₀ ∅ T B) := by
  have hDown : ∀ w, Held env fs₀ (insert rel ∅) T B w → Held env fs₀ ∅ T B w :=
    fun _ hw => ⟨hw.1.mono (Set.empty_subset _), hw.2⟩
  refine triple_conseq (P := fun w => Held env fs₀ (insert rel ∅) T B w ∧
      ∀ node, fs₀.get ⟨.backing, rel⟩ = some node → node.kind ≠ .symlink)
    (triple_fact hx) (fun w hw => ?_) (fun _ => hDown) hDown
  refine ⟨⟨hw.1.1.insert fun found hFound => ?_, hw.1.2⟩, hw.1.plain_of_uncopied hw.2 hk⟩
  rw [hw.2.1] at hFound
  cases hFound

theorem held_copyRegular (hk : info.kind ≠ .symlink) :
    Keeps env (Held env fs₀ (insert rel ∅) T B) (copyRegular src ⟨.cow, rel⟩ info) :=
  keeps_and (guarded_copyRegular hk) (keeps_copyRegular untimed_tables src hk creates_tables
    (freeAt_tables _ _))

theorem held_copyDirNode (hk : info.kind ≠ .symlink) :
    Keeps env (Held env fs₀ (insert rel ∅) T B) (copyDirNode src ⟨.cow, rel⟩ info) :=
  keeps_and (guarded_copyDirNode hk) (keeps_copyDirNode untimed_tables src hk tables_createDirAll
    (freeAt_tables _ _))

theorem held_parents : Keeps env (Held env fs₀ S T B) (createDirAll (Loc.parent ⟨.cow, rel⟩)) :=
  keeps_and guarded_parents tables_createDirAll

theorem held_copyRules (hBare : Bare fs₀ rel) :
    CopyRules env rel (Held env fs₀ ∅ T B) (fun _ => Held env fs₀ ∅ T B) (Held env fs₀ ∅ T B) where
  untimed := untimed_held
  done _ hw _ := hw
  failed _ hw := hw
  link info hk := held_link_of_uncopied hBare hk
  dir info hk := held_plain_of_uncopied (by simp [hk]) fun hPlain =>
    keeps_seq held_parents <|
    keeps_seq (held_copyDirNode (by simp [hk])) <|
    held_seedXattrs hBare fun _ => hPlain
  file info hk _ := held_plain_of_uncopied hk fun hPlain =>
    keeps_seq held_parents <|
    keeps_seq (held_copyRegular hk) <|
    held_seedXattrs hBare fun _ => hPlain

theorem held_copyUpFile (hBare : Bare fs₀ rel) : Keeps env (Held env fs₀ ∅ T B) (copyUpFile rel) :=
  triple_copyUpFile (held_copyRules hBare)

theorem held_copyUpEmptyFileForTruncate (hBare : Bare fs₀ rel) :
    Keeps env (Held env fs₀ ∅ T B) (copyUpEmptyFileForTruncate rel) := by
  refine triple_copyUpEmptyFileForTruncate (held_copyRules hBare) fun info hk =>
    held_plain_of_uncopied (by simp [hk]) fun hPlain => ?_
  refine keeps_seq held_parents <|
    keeps_seq (triple_ask <| keeps_and ?_ (tables_makeNode _ _ _)) <|
    keeps_seq (keeps_and ?_ ?_) <|
    held_seedXattrs hBare fun _ => hPlain
  · exact (guarded_makeNode (by simp) (fun _ => by simp) _ _).post (fun _ _ hw => hw.1)
  · exact keeps_copyAttributes untimed_guarded _ (by simp [hk]) (freeAt_guarded noLink_insert)
  · exact keeps_copyAttributes untimed_tables _ (by simp [hk]) (freeAt_tables _ _)

theorem held_copyUpTree (hBare : ∀ t, Bare fs₀ (rel ++ t)) :
    Keeps env (Held env fs₀ ∅ T B) (copyUpTree rel) := by
  refine keeps_copyUpTree (S := fun rel => ∀ t, Bare fs₀ (rel ++ t)) (fun rel n h t => ?_)
    (fun depth rel h hChild => ?_) hBare
  · rw [List.append_assoc]
    exact h _
  · have hSelf : Bare fs₀ rel := by simpa using h []
    refine triple_copyUpTreeAux (held_copyRules hSelf) fun info hk => ?_
    refine Triple.pre (P := fun w => (Held env fs₀ ∅ T B w ∧ Uncopied env rel info w) ∧
        ∀ node, fs₀.get ⟨.backing, rel⟩ = some node → node.kind ≠ .symlink)
      (triple_fact fun hPlain => ?_)
      (fun w hw => ⟨hw, hw.1.plain_of_uncopied hw.2 (by simp [hk])⟩)
    -- below the directory the copies may be links again
    refine triple_seq (held_plain_of_uncopied (by simp [hk]) fun _ =>
        held_copyDirNode (by simp [hk])) <|
      keeps_seq (held_seedXattrs hSelf fun _ => hPlain) <|
      keeps_seq (keeps_query untimed_held _) <|
      keeps_each fun n _ => keeps_seq (keeps_query untimed_held _) <| hChild n

/-! ## The object of a path -/

/-- The object of a path, hidden or not. -/
def objectAt (env : Env) (fs : HostFs) (rel : Path) : Option Node :=
  (fs.get ⟨.cow, rel⟩).or (if env.layout.backingRoot then fs.get ⟨.backing, rel⟩ else none)

theorem objectAt_of_resolve {fs : HostFs} {loc : Loc} {node : Node}
    (hCow : env.layout.cowRoot = true) (h : resolve env fs rel = some loc)
    (hNode : fs.get loc = some node) : objectAt env fs rel = some node := by
  obtain ⟨-, ⟨-, rfl, -⟩ | ⟨hRoot, rfl, -, hNone⟩⟩ := resolve_eq_some.mp h
  · rw [objectAt, hNode]
    rfl
  · rw [objectAt, hNone hCow, if_pos hRoot, hNode]
    rfl

/-- The copy of the path has the attributes `table`, or there is none yet and `table` is empty
like those of everything that is made. -/
def Carries (env : Env) (T : Nat → XattrTable) (B : Set Path) (rel : Path) (table : XattrTable)
    (w : World) : Prop :=
  (Tables env T B w ∧ ∃ node, w.fs.get ⟨.cow, rel⟩ = some node ∧ T node.ino = table) ∨
    (Tables env T (insert rel B) w ∧ table = ∅)

section Carries

variable {w : World} {table : XattrTable}

theorem Carries.tables (h : Carries env T B rel table w) : Tables env T B w := by
  rcases h with ⟨h, -⟩ | ⟨h, -⟩
  · exact h
  · exact h.mono (Set.subset_insert _ _)

theorem Carries.table_eq (h : Carries env T B rel table w) {node : Node}
    (hNode : w.fs.get ⟨.cow, rel⟩ = some node) : T node.ino = table := by
  rcases h with ⟨-, found, hFound, hTable⟩ | ⟨h, rfl⟩
  · rw [hFound] at hNode
    cases hNode
    exact hTable
  · exact h.blank rel (Set.mem_insert _ _) node hNode

theorem ofCopies_carries : OfCopies env (Carries env T B rel table) := by
  rintro w w' hGet hTables (⟨h, node, hNode, hTable⟩ | ⟨h, hTable⟩)
  · exact .inl ⟨hTables _ _ h, node, (hGet rel).trans hNode, hTable⟩
  · exact .inr ⟨hTables _ _ h, hTable⟩

theorem Carries.made (h : Carries env T B rel table w) {loc : Loc} {node : Node} {inode : Inode}
    {fs' : HostFs} (hm : Made w loc node inode fs') :
    Carries env T B rel table { w with fs := fs' } := by
  rcases h with ⟨h, found, hFound, hTable⟩ | ⟨h, hTable⟩
  · refine .inl ⟨h.made hm, found, ?_, hTable⟩
    refine (hm.entered.get_eq _).trans (if_neg ?_ |>.trans hFound)
    rintro rfl
    rw [hm.entered.absent] at hFound
    cases hFound
  · exact .inr ⟨h.made hm, hTable⟩

theorem carries_createDirAll {loc : Loc} :
    Keeps env (Carries env T B rel table) (createDirAll loc) :=
  keeps_createDirAll fun _ _ => keeps_createDir ofCopies_carries.untimed
    fun _ _ _ hw _ hm => hw.made hm

end Carries

/-- A copy-up that leaves a copy alone, and brings no attributes along, leaves the copy of a
path with the attributes of its object. -/
theorem carried_of {x : Op Unit} {fs : HostFs} {before : Node}
    (hStay : ∀ node, Triple env (fun w => Held env fs₀ ∅ T B w ∧ w.fs.get ⟨.cow, rel⟩ = some node) x
      (fun _ w => Held env fs₀ ∅ T B w ∧ w.fs.get ⟨.cow, rel⟩ = some node)
      (Held env fs₀ ∅ T B))
    (hNew : Keeps env (Held env fs₀ ∅ T (insert rel B)) x)
    (hBefore : objectAt env fs rel = some before) :
    Triple env (fun w => Held env fs₀ ∅ T B w ∧ w.fs = fs) x
      (fun _ => Carries env T B rel (T before.ino)) (Tables env T B) := by
  cases hc : fs.get ⟨.cow, rel⟩ with
  | some found =>
    rw [objectAt, hc, some_or, some.injEq] at hBefore
    subst hBefore
    exact triple_conseq (hStay found) (fun w hw => ⟨hw.1, hw.2 ▸ hc⟩)
      (fun _ w hw => .inl ⟨hw.1.2, found, hw.2, rfl⟩) (fun _ hw => hw.2)
  | none =>
    rw [objectAt, hc, none_or] at hBefore
    split at hBefore
    · refine Triple.pre (P := fun w => Held env fs₀ ∅ T (insert rel B) w ∧ T before.ino = ∅)
        (triple_fact fun hEmpty => triple_imp hNew
          (fun _ w hw => .inr ⟨hw.2, hEmpty⟩) (fun _ hw => hw.2.mono (Set.subset_insert _ _)))
        (fun w hw => ?_)
      obtain ⟨hw, rfl⟩ := hw
      refine ⟨⟨hw.1, hw.2.insert fun node hNode => ?_⟩, hw.2.elsewhere (by simp) hBefore⟩
      rw [hc] at hNode
      cases hNode
    · cases hBefore

section Stays

variable {node : Node}

/-- Where there is a copy, nothing is copied. -/
theorem triple_of_named {info : Meta} {x : Op Unit} {Q : Unit → World → Prop} {E : World → Prop} :
    Copies env rel (fun w => Held env fs₀ ∅ T B w ∧ w.fs.get ⟨.cow, rel⟩ = some node)
      Q E info x := by
  intro w hw
  have hNone := hw.2.1
  rw [hw.1.2] at hNone
  cases hNone

theorem named_copyRules : CopyRules env rel
    (fun w => Held env fs₀ ∅ T B w ∧ w.fs.get ⟨.cow, rel⟩ = some node)
    (fun _ w => Held env fs₀ ∅ T B w ∧ w.fs.get ⟨.cow, rel⟩ = some node) (Held env fs₀ ∅ T B) :=
  .of_never (fun w n hw => ⟨untimed_held w n hw.1, hw.2⟩) (fun _ hw _ => hw)
    (fun _ hw => hw.1) triple_of_named

end Stays

end Copies

end FabricFs.Overlay
