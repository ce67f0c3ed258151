import FabricFs.Lib.Runs
import FabricFs.Overlay.Indifferent
import FabricFs.Overlay.Reports
import FabricFs.Overlay.Samples

/-!
# Handles on one path

Which host object a handle stands for is decided when it is opened. Two handles on one path
stand for one object as long as every open of the path finds it where the open handles are:
at the object that they hold and, when the open is for writing, at a copy that exists
already. An open for writing that makes the copy leaves earlier handles at the backing file.

* `OneFile`: all handles on a path hold one inode, and conflicting locks are apart.
* `Rejoins`: what an open has to find.
* `handles_agree_run`: the invariant over whole runs, and what it means for reads and locks.
-/

namespace FabricFs.Overlay

open Lib Lib.Prog Server List Option Except

/-! ## The invariant -/

/-- A file handle on the path, with the object that it holds. -/
def OpenOn (handles : Dict Nat HandleEntry) (p : Path) (fh : Nat) (file : Node) : Prop :=
  ∃ entry, handles.lookup fh = some entry ∧ entry.path = p ∧ entry.kind = .file ∧
    entry.file = some file

structure OneFile (p : Path) (ino : Nat) (w : World) : Prop where
  same : ∀ fh file, OpenOn w.handles p fh file → file.ino = ino
  peaceful : LockTable.Peaceful w.locks

variable {env : Env} {p : Path} {ino : Nat}

theorem indifferent_oneFile : Indifferent (OneFile p ino) := fun _ _ _ _ h => ⟨h.same, h.peaceful⟩

theorem stable_oneFile : Stable env (OneFile p ino) where
  untimed := indifferent_oneFile.untimed
  loaded := keeps_loadTable indifferent_oneFile.passive
  locked _ _ _ h hStep := ⟨h.same, hStep.peaceful h.peaceful⟩
  released w fh h := by
    refine ⟨fun fh' file hOpen => ?_, h.peaceful⟩
    obtain ⟨entry, hl, hrest⟩ := hOpen
    rw [Dict.lookup_erase_eq] at hl
    split at hl
    · cases hl
    · exact h.same fh' file ⟨entry, hl, hrest⟩
  sought w fh entry offset h hl := by
    refine ⟨fun fh' file hOpen => ?_, h.peaceful⟩
    obtain ⟨entry', hl', hrest⟩ := hOpen
    rw [Dict.lookup_insert_eq] at hl'
    split at hl'
    · cases hl'
      exact h.same fh file ⟨entry, hl, hrest⟩
    · exact h.same fh' file ⟨entry', hl', hrest⟩

/-- A handle on another path, or on a directory. -/
theorem keeps_allocateHandle_elsewhere {path : Path} {kind : HandleKind}
    (hOther : path ≠ p ∨ kind ≠ .file) (bits : Nat) (blocked : Bool) (file : Option Node) :
    Keeps env (OneFile p ino) (allocateHandle path kind bits blocked file) := by
  refine keeps_bind (keeps_state _) (fun next => keeps_map (keeps_change fun w hw => ?_))
  refine ⟨fun fh file hOpen => ?_, hw.peaceful⟩
  obtain ⟨entry, hl, hPath, hKind, hFile⟩ := hOpen
  rw [Dict.lookup_insert_eq] at hl
  split at hl
  · cases hl
    exact hOther.elim (fun h => absurd hPath h) (fun h => absurd hKind h)
  · exact hw.same fh file ⟨entry, hl, hPath, hKind, hFile⟩

/-- A rename that does not lead to the path or above it brings no handle there. -/
theorem keeps_rewritePaths_elsewhere {source target : Path} (h : ¬ target <+: p) :
    Keeps env (OneFile p ino) (rewritePaths source target) := by
  refine keeps_change fun w hw => ⟨fun fh file hOpen => ?_, (LockTable.LockStep.renamed).peaceful
    hw.peaceful⟩
  obtain ⟨entry, hl, hPath, hKind, hFile⟩ := hOpen
  rw [Dict.lookup_mapValues, map_eq_some_iff] at hl
  obtain ⟨old, hOld, rfl⟩ := hl
  refine hw.same fh file ⟨old, hOld, ?_, hKind, hFile⟩
  simp only [rewritePath] at hPath
  split at hPath
  · exact absurd ⟨_, hPath⟩ h
  · exact hPath

/-! ## Opens of the path -/

/-- All handles on the path hold one inode. -/
def Agree (p : Path) (w : World) : Prop := ∃ ino, OneFile p ino w

/-- No file handle is open on the path. -/
def Unopened (p : Path) (w : World) : Prop :=
  (∀ fh file, ¬ OpenOn w.handles p fh file) ∧ LockTable.Peaceful w.locks

theorem indifferent_unopened : Indifferent (Unopened p) := fun _ _ _ _ h => h

theorem Unopened.agree {w : World} (h : Unopened p w) : Agree p w :=
  ⟨0, fun fh file hOpen => absurd hOpen (h.1 fh file), h.2⟩

/-- A new handle joins those that hold the same inode. -/
theorem oneFile_allocateHandle (file : Node) (bits : Nat) (blocked : Bool) :
    Triple env (OneFile p file.ino) (allocateHandle p .file bits blocked (some file))
      (fun _ => Agree p) (Agree p) := by
  intro w hw
  refine ⟨file.ino, fun fh other hOpen => ?_, hw.peaceful⟩
  obtain ⟨entry, hl, hrest⟩ := hOpen
  simp only [Dict.lookup_insert_eq] at hl
  split at hl
  · cases hl
    rw [← some.inj hrest.2.2]
  · exact hw.same fh other ⟨entry, hl, hrest⟩

theorem unopened_allocateHandle (bits : Nat) (blocked : Bool) (file : Option Node) :
    Triple env (Unopened p) (allocateHandle p .file bits blocked file)
      (fun _ => Agree p) (Agree p) := by
  cases file with
  | some file =>
    refine (oneFile_allocateHandle file bits blocked).pre (fun w hw => ?_)
    exact ⟨fun fh other hOpen => absurd hOpen (hw.1 fh other), hw.2⟩
  | none =>
    intro w hw
    refine ⟨0, fun fh other hOpen => ?_, hw.2⟩
    obtain ⟨entry, hl, hrest⟩ := hOpen
    simp only [Dict.lookup_insert_eq] at hl
    split at hl
    · cases hl
      cases hrest.2.2
    · exact absurd ⟨entry, hl, hrest⟩ (hw.1 fh other)

/-! ## An object that stays in place -/

/-- The handles agree, and the object is at its place. -/
def Placed (p : Path) (loc : Loc) (node : Node) (w : World) : Prop :=
  OneFile p node.ino w ∧ w.fs.get loc = some node

section Placed

variable {loc : Loc} {node : Node}

theorem Placed.agree {w : World} (h : Placed p loc node w) : Agree p w := ⟨_, h.1⟩

theorem untimed_placed : Untimed (Placed p loc node) :=
  fun w n h => ⟨indifferent_oneFile.untimed w n h.1, h.2⟩

theorem placed_createDirAll (dir : Loc) : Keeps env (Placed p loc node) (createDirAll dir) := by
  refine keeps_createDirAll fun q _ => keeps_createDir untimed_placed fun w made fs' hw _ hm => ?_
  refine ⟨indifferent_oneFile w fs' w.cache w.calls hw.1, ?_⟩
  rw [hm.entered.get_eq, if_neg]
  · exact hw.2
  · rintro rfl
    have hNone := hm.entered.absent
    rw [hw.2] at hNone
    cases hNone

theorem placed_clearTombstone (hRoot : loc.root ≠ .alias) (rel : Path) :
    Keeps env (Placed p loc node) (clearTombstone rel) := by
  refine keeps_clearTombstone untimed_placed fun q => keeps_removeFile untimed_placed
    fun w _ fs' hw _ _ hR => ?_
  refine ⟨indifferent_oneFile w fs' w.cache w.calls hw.1, ?_⟩
  rw [hR.get_eq, if_neg]
  · exact hw.2
  · rintro rfl
    exact hRoot rfl

theorem placed_uncopied {info : Meta} {x : Op Unit} {Q : Unit → World → Prop}
    {E : World → Prop} : Copies env p (Placed p ⟨.cow, p⟩ node) Q E info x := by
  rintro w ⟨hw, hNone, -⟩
  rw [hw.2] at hNone
  cases hNone

theorem placed_copyRules : CopyRules env p (Placed p ⟨.cow, p⟩ node)
    (fun _ => Placed p ⟨.cow, p⟩ node) (Placed p ⟨.cow, p⟩ node) :=
  .of_never untimed_placed (fun _ hw _ => hw) (fun _ hw => hw) placed_uncopied

theorem placed_copyUpFile : Keeps env (Placed p ⟨.cow, p⟩ node) (copyUpFile p) :=
  triple_copyUpFile placed_copyRules

theorem placed_copyUpEmptyFileForTruncate :
    Keeps env (Placed p ⟨.cow, p⟩ node) (copyUpEmptyFileForTruncate p) :=
  triple_copyUpEmptyFileForTruncate placed_copyRules fun _ _ => placed_uncopied

/-- The object is where a write to the path goes. -/
theorem placed_prepareFileForWrite (hLoc : loc.path = p)
    (hRoot : loc.root = if env.layout.cowRoot then .cow else .backing) :
    Triple env (Placed p loc node) (prepareFileForWrite p)
      (fun target w => Placed p loc node w ∧ target = loc) (Placed p loc node) := by
  obtain ⟨root, path⟩ := loc
  simp only at hLoc hRoot
  subst hLoc
  refine triple_ask (triple_seq keeps_ensureWritable <|
    triple_seq keeps_ensureBackingMutable (triple_ite (fun hCow => ?_) (fun hCow => ?_)))
  · rw [if_pos hCow] at hRoot
    subst hRoot
    exact triple_seq placed_copyUpFile <|
      triple_seq (keeps_probe _) <|
      triple_seq (keeps_ensure _ _) <|
      triple_seq (placed_clearTombstone (by simp) _) <|
      triple_pure fun _ hw => ⟨hw, rfl⟩
  · rw [if_neg hCow] at hRoot
    subst hRoot
    refine triple_ask ?_
    cases hb : backingPath env path with
    | none => exact triple_thrown
    | some target =>
      obtain rfl := backingPath_eq hb
      exact triple_pure fun _ hw => ⟨hw, rfl⟩

end Placed

/-! ## The open calls -/

theorem triple_openFile {I : World → Prop} (hI : Untimed I) (loc : Loc) (write : Bool) :
    Triple env I (openFile loc write)
      (fun file w => I w ∧ followNode env w.fs loc = .ok file) I := by
  refine (triple_query hI _).post ?_
  rintro file w ⟨hw, n, hf⟩
  refine ⟨hw, ?_⟩
  simp only at hf
  split at hf
  · cases hf
  · rename_i node hNode
    split at hf
    · cases hf
    · cases hf
      exact hNode

section Opens

variable {node : Node}

variable {target loc : Loc} {fs₀ : HostFs} {flags : Nat} {c : FuseContext}

/-- The handle holds what the path leads to. -/
theorem triple_openExisting_on {I : World → Prop} (hI : Untimed I)
    (hOne : ∀ w, I w → OneFile p node.ino w)
    (hLeads : ∀ w, I w → followNode env w.fs target = .ok node) (blocked : Bool) (flags : Nat)
    (c : FuseContext) :
    Triple env I (openExisting ⟨p, target, blocked⟩ .file flags c) (fun _ => Agree p)
      (Agree p) := by
  have hErr : ∀ w, I w → Agree p w := fun w hw => ⟨_, hOne w hw⟩
  have hErr' : ∀ w, OneFile p node.ino w → Agree p w := fun w hw => ⟨_, hw⟩
  refine triple_seq ((keeps_followedMetadata hI _).weaken hErr) <|
    triple_seq ((keeps_ensureKind _ _).weaken hErr) <|
    triple_seq ((keeps_ensureRegularFile _).weaken hErr) <|
    triple_bind ((keeps_ensureOpenFlagsAllowed _ _ _ _).weaken hErr) fun bits => ?_
  refine triple_bind (Q := fun file w => OneFile p node.ino w ∧ file = node) ?_
    (fun file => triple_fact fun hFile => ?_)
  · refine triple_imp (triple_openFile hI _ _) ?_ hErr
    rintro file w ⟨hw, hf⟩
    rw [hLeads w hw, ok.injEq] at hf
    exact ⟨hOne w hw, hf.symm⟩
  · subst hFile
    exact triple_seq ((keeps_onlyIf fun _ => indifferent_oneFile.update _).weaken hErr') <|
      triple_seq ((indifferent_oneFile.query _).weaken hErr') <|
      triple_seq (oneFile_allocateHandle _ _ _) <|
      triple_done

theorem resolve_root {fs : HostFs} (h : resolve env fs p = some loc) :
    loc.path = p ∧ (loc.root = .cow ∧ env.layout.cowRoot = true ∨ loc.root = .backing) := by
  obtain ⟨-, ⟨hCow, rfl, -⟩ | ⟨-, rfl, -⟩⟩ := resolve_eq_some.mp h
  · exact ⟨rfl, .inl ⟨rfl, hCow⟩⟩
  · exact ⟨rfl, .inr rfl⟩

/-- The place of a path that an open for writing finds in the tree that is written. -/
theorem resolve_written {fs : HostFs} (h : resolve env fs p = some loc)
    (hRoot : env.layout.cowRoot = true → loc.root = .cow) :
    loc.path = p ∧ loc.root = if env.layout.cowRoot then .cow else .backing := by
  obtain ⟨hPath, hCases⟩ := resolve_root h
  refine ⟨hPath, ?_⟩
  split
  · rename_i hCow
    exact hRoot hCow
  · rename_i hCow
    exact hCases.resolve_left fun h => hCow h.2

/-- The place where the open finds the object, which stays there or was only read. -/
def Found (env : Env) (p : Path) (fs₀ : HostFs) (node : Node) (target : Loc) (w : World) : Prop :=
  OneFile p node.ino w ∧ w.fs = fs₀ ∧ followNode env fs₀ target = .ok node ∨
    Placed p target node w ∧ node.kind ≠ .symlink

theorem triple_openExisting_found (blocked : Bool) (flags : Nat) (c : FuseContext) :
    Triple env (Found env p fs₀ node target) (openExisting ⟨p, target, blocked⟩ .file flags c)
      (fun _ => Agree p) (Agree p) := by
  rintro w (⟨hOne, hFs, hLeads⟩ | ⟨hPlaced, hk⟩)
  · refine triple_openExisting_on (I := fun w => OneFile p node.ino w ∧ w.fs = fs₀) ?_
      (fun _ hw => hw.1) (fun w hw => by rw [hw.2, hLeads]) blocked flags c w ⟨hOne, hFs⟩
    exact fun w n hw => ⟨indifferent_oneFile.untimed w n hw.1, hw.2⟩
  · exact triple_openExisting_on untimed_placed (fun _ hw => hw.1)
      (fun w hw => followNode_of_not_symlink hw.2 hk) blocked flags c w hPlaced

/-- An open for writing finds the object at its place and leaves it there. -/
theorem triple_openTarget_placed (hRes : resolve env fs₀ p = some loc)
    (hLeads : followNode env fs₀ loc = .ok node)
    (hRoot : env.layout.cowRoot = true → loc.root = .cow) (flags : Nat) :
    Triple env (fun w => OneFile p node.ino w ∧ w.fs = fs₀) (do
      ensureNotSymlink loc
      if hasBit flags oTrunc && env.layout.cowRoot then do
        copyUpEmptyFileForTruncate p
        clearTombstone p
        pure ⟨.cow, p⟩
      else prepareFileForWrite p) (fun target w => Found env p fs₀ node target w) (Agree p) := by
  obtain ⟨hPath, hTree⟩ := resolve_written hRes hRoot
  have hU : Untimed (fun w => OneFile p node.ino w ∧ w.fs = fs₀) :=
    fun w n hw => ⟨indifferent_oneFile.untimed w n hw.1, hw.2⟩
  -- the object is no link, so that it is what the path leads to
  have hPlain : Triple env (fun w => OneFile p node.ino w ∧ w.fs = fs₀) (ensureNotSymlink loc)
      (fun _ w => Placed p loc node w ∧ node.kind ≠ .symlink) (Agree p) := by
    refine triple_imp (triple_ensureNotSymlink hU loc) ?_
      (fun w hw => ⟨_, hw.1⟩)
    rintro _ w ⟨⟨hOne, rfl⟩, found, hFound, hk⟩
    rw [followNode_of_not_symlink hFound hk, ok.injEq] at hLeads
    subst hLeads
    exact ⟨⟨hOne, hFound⟩, hk⟩
  have hErr : ∀ w, Placed p loc node w → Agree p w := fun _ hw => hw.agree
  refine triple_learn hPlain (fun _ hk => triple_ite (fun hTrunc => ?_)
    (fun _ => ?_))
  · obtain ⟨root, path⟩ := loc
    simp only [Bool.and_eq_true] at hTrunc hPath hTree
    rw [if_pos hTrunc.2] at hTree
    subst hPath hTree
    exact triple_seq (placed_copyUpEmptyFileForTruncate.weaken hErr) <|
      triple_seq ((placed_clearTombstone (by simp) _).weaken hErr) <|
        triple_pure fun _ hw => .inr ⟨hw, hk⟩
  · refine triple_imp (placed_prepareFileForWrite hPath hTree) ?_ hErr
    rintro target w ⟨hw, rfl⟩
    exact .inr ⟨hw, hk⟩

/-- An open that finds the path at the inode of the open handles. -/
theorem triple_openOp_on
    (hJoin : ∀ bits loc node, openAccessBits flags = .ok bits → resolve env fs₀ p = some loc →
      followNode env fs₀ loc = .ok node → accessAllowed (fs₀.metaOf node) c.uid c.gid bits = true →
      node.ino = ino ∧ (hasBit bits 0o2 = true → env.layout.cowRoot = true → loc.root = .cow)) :
    Triple env (fun w => OneFile p ino w ∧ w.fs = fs₀) (openOp p .file flags (some c))
      (fun _ => Agree p) (Agree p) := by
  have hU : Untimed (fun w => OneFile p ino w ∧ w.fs = fs₀) :=
    fun w n hw => ⟨indifferent_oneFile.untimed w n hw.1, hw.2⟩
  have hErr : ∀ w, OneFile p ino w ∧ w.fs = fs₀ → Agree p w := fun w hw => ⟨_, hw.1⟩
  refine triple_ask (triple_bind (Q := fun c' w => (OneFile p ino w ∧ w.fs = fs₀) ∧ c' = c)
    (triple_pure fun _ hw => ⟨hw, rfl⟩) (fun c' => triple_fact fun hc => ?_))
  subst hc
  refine triple_bind (Q := fun loc w => (OneFile p ino w ∧ w.fs = fs₀) ∧
    resolve env fs₀ p = some loc) ?_ (fun loc => triple_fact fun hRes => ?_)
  · refine triple_imp (triple_resolveExisting p) ?_ hErr
    rintro loc w ⟨hw, hRes⟩
    rw [hw.2] at hRes
    exact ⟨hw, hRes⟩
  refine triple_bind (Q := fun info w => (OneFile p ino w ∧ w.fs = fs₀) ∧
    ∃ node, followNode env fs₀ loc = .ok node ∧ info = fs₀.metaOf node) ?_
    (fun info => triple_fact fun hInfo => ?_)
  · refine triple_imp (triple_followedMetadata hU loc) ?_ hErr
    rintro info w ⟨hw, node, hLeads, rfl⟩
    rw [hw.2] at hLeads ⊢
    exact ⟨⟨hw.1, rfl⟩, node, hLeads, rfl⟩
  obtain ⟨node, hLeads, rfl⟩ := hInfo
  refine triple_then ((keeps_ensureKind _ _).weaken hErr) ?_
  refine triple_bind (Q := fun target => Found env p fs₀ node target) ?_
    (fun target => triple_openExisting_found _ _ _)
  refine triple_ask (triple_seq ((keeps_ensureRegularFile _).weaken hErr) <|
    triple_bind ((triple_ensureOpenFlagsAllowed _ _ _ _).weaken hErr) (fun bits => triple_fact
      fun hBits => ?_))
  obtain ⟨rfl, hRoot⟩ := hJoin bits loc node hBits.1 hRes hLeads hBits.2
  exact triple_ite (fun hWrite => triple_openTarget_placed hRes hLeads (hRoot hWrite) flags)
    (fun _ => triple_pure fun w hw => .inl ⟨hw.1, hw.2, hLeads⟩)

/-- The checks of `create` on a path at the inode of the open handles. -/
theorem triple_checkCreate_on
    (hJoin : ∀ bits node, openAccessBits flags = .ok bits → followNode env fs₀ loc = .ok node →
      accessAllowed (fs₀.metaOf node) c.uid c.gid bits = true → node.ino = ino ∧
      (env.layout.cowRoot = true → loc.root = .cow)) :
    Triple env (fun w => OneFile p ino w ∧ w.fs = fs₀) (checkCreate p (some loc) flags c)
      (fun _ w => ∃ node, Placed p loc node w ∧ node.kind ≠ .symlink ∧
        (env.layout.cowRoot = true → loc.root = .cow)) (Agree p) := by
  have hU : Untimed (fun w => OneFile p ino w ∧ w.fs = fs₀) :=
    fun w n hw => ⟨indifferent_oneFile.untimed w n hw.1, hw.2⟩
  have hErr : ∀ w, OneFile p ino w ∧ w.fs = fs₀ → Agree p w := fun w hw => ⟨_, hw.1⟩
  refine triple_seq ((keeps_metadata hU _).weaken hErr) <|
    triple_seq ((keeps_ensure _ _).weaken hErr) <|
    triple_then ((keeps_ensure _ _).weaken hErr) ?_
  refine triple_bind (Q := fun _ w => (OneFile p ino w ∧ w.fs = fs₀) ∧
    ∃ node, fs₀.get loc = some node ∧ node.kind ≠ .symlink) ?_
    (fun _ => triple_fact fun hNode => ?_)
  · refine triple_imp (triple_ensureNotSymlink hU loc) ?_ hErr
    rintro _ w ⟨hw, hNode⟩
    rw [hw.2] at hNode
    exact ⟨hw, hNode⟩
  obtain ⟨node, hGet, hk⟩ := hNode
  have hLeads : followNode env fs₀ loc = .ok node := followNode_of_not_symlink hGet hk
  refine triple_bind (Q := fun info w => (OneFile p ino w ∧ w.fs = fs₀) ∧
    info = fs₀.metaOf node) ?_ (fun info => triple_fact fun hInfo => ?_)
  · refine triple_imp (triple_query hU _) ?_ hErr
    rintro info w ⟨hw, n, hf⟩
    obtain ⟨found, hFound, rfl⟩ := map_eq_ok.mp hf
    simp only [hw.2] at hFound
    rw [hLeads, ok.injEq] at hFound
    subst hFound
    exact ⟨hw, by simp only [hw.2]⟩
  subst hInfo
  refine triple_seq ((keeps_ensureRegularFile _).weaken hErr) (triple_learn
    ((triple_ensureOpenFlagsAllowed _ _ _ _).weaken hErr)
    (fun bits hBits => triple_pure ?_))
  rintro w ⟨hOne, rfl⟩
  obtain ⟨rfl, hRoot⟩ := hJoin bits node hBits.1 hLeads hBits.2
  exact ⟨node, ⟨hOne, hGet⟩, hk, hRoot⟩

/-- What `create` does once the object is known to be where the path is written. -/
theorem triple_create_placed (hPath : loc.path = p)
    (hTree : loc.root = if env.layout.cowRoot then .cow else .backing) (hk : node.kind ≠ .symlink)
    (truncate : Bool) {bits mode : Nat} :
    Triple env (Placed p loc node) (do
      onlyIf env.layout.cowRoot (if truncate then copyUpEmptyFileForTruncate p else copyUpFile p)
      let target ← targetFileForWrite p
      let targetMeta ← lstat target
      checkTarget targetMeta true flags c
      clearTombstone p
      createDirAll target.parent
      let file ← openTarget target true bits mode c
      let _ ← fileMetadata file
      onlyIf truncate (setLen file 0)
      registerFileHandle ⟨p, target, permissionUpdatesBlocked env target⟩ bits file)
      (fun _ => Agree p) (Agree p) := by
  have hErr : ∀ w, Placed p loc node w → Agree p w := fun _ hw => hw.agree
  have hErr' : ∀ w, OneFile p node.ino w → Agree p w := fun w hw => ⟨_, hw⟩
  obtain ⟨root, path⟩ := loc
  simp only at hPath hTree
  subst hPath
  refine triple_then (Q := Placed path ⟨root, path⟩ node) (Keeps.weaken ?_ hErr)
    ?_
  · refine keeps_onlyIf fun hCow => ?_
    rw [if_pos hCow] at hTree
    subst hTree
    exact keeps_if placed_copyUpEmptyFileForTruncate placed_copyUpFile
  refine triple_bind (Q := fun target w => Placed path ⟨root, path⟩ node w ∧
    target = ⟨root, path⟩) ?_ (fun target => triple_fact fun hTarget => ?_)
  · refine triple_ask (triple_seq ((keeps_ensure _ _).weaken hErr) <|
      triple_then (keeps_ensureBackingMutable.weaken hErr) ?_)
    cases hCow : env.layout.cowRoot with
    | true =>
      rw [hCow, if_pos rfl] at hTree
      subst hTree
      rw [overlayPath, if_pos hCow]
      exact triple_pure fun _ hw => ⟨hw, rfl⟩
    | false =>
      rw [hCow, if_neg (by simp)] at hTree
      subst hTree
      rw [overlayPath, if_neg (by simp [hCow]), none_or]
      cases hb : backingPath env path with
      | none => exact triple_throw hErr
      | some target =>
        obtain rfl := backingPath_eq hb
        exact triple_pure fun _ hw => ⟨hw, rfl⟩
  subst hTarget
  have hRoot : root ≠ .alias := by
    rw [hTree]
    split <;> simp
  refine triple_seq ((keeps_lstat untimed_placed _).weaken hErr) <|
    triple_seq ((keeps_checkTarget _ _ _ _).weaken hErr) <|
    triple_seq ((placed_clearTombstone hRoot _).weaken hErr) <|
    triple_then ((placed_createDirAll _).weaken hErr) ?_
  refine triple_bind (Q := fun file w => OneFile path node.ino w ∧ file = node) ?_
    (fun file => triple_fact fun hFile => ?_)
  · refine triple_imp (triple_openFile untimed_placed _ _) ?_ hErr
    rintro file w ⟨hw, hf⟩
    rw [followNode_of_not_symlink hw.2 hk, ok.injEq] at hf
    exact ⟨hw.1, hf.symm⟩
  subst hFile
  exact triple_seq ((indifferent_oneFile.query _).weaken hErr') <|
    triple_seq ((keeps_onlyIf fun _ => indifferent_oneFile.update _).weaken hErr') <|
    triple_seq ((indifferent_oneFile.query _).weaken hErr') <|
    triple_seq (oneFile_allocateHandle _ _ _) <|
    triple_done

/-- A `create` that finds the path at the inode of the open handles. -/
theorem triple_createFileOp_on {mode : Nat} (hRes : resolve env fs₀ p = some loc)
    (hJoin : ∀ bits node, openAccessBits flags = .ok bits → followNode env fs₀ loc = .ok node →
      accessAllowed (fs₀.metaOf node) c.uid c.gid bits = true → node.ino = ino ∧
      (env.layout.cowRoot = true → loc.root = .cow)) :
    Triple env (fun w => OneFile p ino w ∧ w.fs = fs₀) (createFileOp p mode flags (some c))
      (fun _ => Agree p) (Agree p) := by
  have hErr : ∀ w, OneFile p ino w ∧ w.fs = fs₀ → Agree p w := fun w hw => ⟨_, hw.1⟩
  refine triple_ask (triple_bind (Q := fun c' w => (OneFile p ino w ∧ w.fs = fs₀) ∧ c' = c)
    (triple_pure fun _ hw => ⟨hw, rfl⟩) (fun c' => triple_fact fun hc => ?_))
  subst hc
  refine triple_seq (keeps_ensureMutable.weaken hErr) <|
    triple_bind ((keeps_result _).weaken hErr) (fun bits => ?_)
  refine triple_bind (Q := fun existing w => (OneFile p ino w ∧ w.fs = fs₀) ∧
    existing = some loc) ?_ (fun existing => triple_fact fun hExisting => ?_)
  · exact fun w hw => ⟨hw, by simp only [hw.2, hRes]⟩
  subst hExisting
  refine triple_then (triple_checkCreate_on hJoin) ?_
  rintro w ⟨node, hPlaced, hk, hRoot⟩
  obtain ⟨hPath, hTree⟩ := resolve_written hRes hRoot
  exact triple_create_placed hPath hTree hk (hasBit flags oTrunc) w hPlaced

end Opens

/-! ## Runs -/

variable {w : World} {fh : Nat} {file : Node}

/-- No rename brings anything to the path. -/
def Spares (p : Path) : Request → Prop
  | .rename _ target _ => ¬ target <+: p
  | _ => True

/-- An open of the path that is admitted finds it at the object of every open handle and,
when the file may then be written, in the tree that is written. -/
def Rejoins (env : Env) (p : Path) (w : World) : Request → Prop
  | .openAt path .file flags (some c) => path = p → ∀ fh file, OpenOn w.handles p fh file →
      ∀ bits loc node, openAccessBits flags = .ok bits → resolve env w.fs p = some loc →
        followNode env w.fs loc = .ok node →
        accessAllowed (w.fs.metaOf node) c.uid c.gid bits = true → node.ino = file.ino ∧
          (hasBit bits 0o2 = true → env.layout.cowRoot = true → loc.root = .cow)
  | .create path _ flags (some c) => path = p → ∀ fh file, OpenOn w.handles p fh file →
      ∃ loc, resolve env w.fs p = some loc ∧ ∀ bits node, openAccessBits flags = .ok bits →
        followNode env w.fs loc = .ok node →
        accessAllowed (w.fs.metaOf node) c.uid c.gid bits = true → node.ino = file.ino ∧
          (env.layout.cowRoot = true → loc.root = .cow)
  | _ => True

/-- The rule for requests that open no file handle on the path. -/
theorem agree_exec_elsewhere {request : Request} (h : Agree p w) (hSpare : Spares p request)
    (hOther : ¬ Opens p .file request) :
    Agree p (step env request w) := by
  obtain ⟨ino, hOne⟩ := h
  refine ⟨ino, keeps_iff.mp (keeps_exec_of_indifferent indifferent_oneFile stable_oneFile
    (fun path kind hOpens => ?_) ?_) w hOne⟩
  · refine keeps_allocateHandle_elsewhere ?_
    by_contra hSame
    obtain ⟨rfl, rfl⟩ : path = p ∧ kind = .file := by simpa using hSame
    exact hOther hOpens
  · rintro source target ctx rfl
    exact keeps_rewritePaths_elsewhere hSpare

/-- A request whose handle table changes only at its end. -/
theorem agree_of_triple {x : Op (Nat × Meta)} {P : World → Prop}
    (hx : Triple env P x (fun _ => Agree p) (Agree p)) (hw : P w) :
    Agree p ((respond (fun r => Response.opened r.1 r.2) x) env w).2 := by
  have hRespond : Triple env P (respond (fun r => Response.opened r.1 r.2) x)
      (fun _ => Agree p) (Agree p) := triple_seq hx (triple_done)
  exact hRespond.after hw

theorem agree_exec {request : Request} (h : Agree p w) (hSpare : Spares p request)
    (hJoin : Rejoins env p w request) : Agree p (step env request w) := by
  by_cases hOpens : Opens p .file request
  case neg => exact agree_exec_elsewhere h hSpare hOpens
  obtain ⟨ino, hOne⟩ := h
  by_cases hAny : ∃ fh file, OpenOn w.handles p fh file
  · obtain ⟨fh, file, hOpen⟩ := hAny
    obtain rfl := hOne.same fh file hOpen
    cases request with
    | openAt path kind flags ctx =>
      obtain ⟨rfl, rfl⟩ := hOpens
      cases ctx with
      | none => exact ⟨_, hOne⟩
      | some c => exact agree_of_triple (triple_openOp_on (hJoin rfl fh file hOpen)) ⟨hOne, rfl⟩
    | create path mode flags ctx =>
      obtain ⟨rfl, -⟩ := hOpens
      cases ctx with
      | none => exact ⟨_, hOne⟩
      | some c =>
        obtain ⟨loc, hRes, hJoin⟩ := hJoin rfl fh file hOpen
        exact agree_of_triple (triple_createFileOp_on hRes hJoin) ⟨hOne, rfl⟩
    | _ => exact hOpens.elim
  · -- the first handle on the path
    have hNone : Unopened p w := ⟨fun fh file hOpen => hAny ⟨fh, file, hOpen⟩, hOne.peaceful⟩
    have hErr : ∀ w, Unopened p w → Agree p w := fun _ hw => hw.agree
    cases request with
    | openAt path kind flags ctx =>
      obtain ⟨rfl, rfl⟩ := hOpens
      exact agree_of_triple (indifferent_openOp indifferent_unopened hErr
        unopened_allocateHandle flags ctx) hNone
    | create path mode flags ctx =>
      obtain ⟨rfl, -⟩ := hOpens
      exact agree_of_triple (indifferent_createFileOp indifferent_unopened hErr
        unopened_allocateHandle mode flags ctx) hNone
    | _ => exact hOpens.elim

theorem agree_started (fs : HostFs) : Agree p (started fs) := by
  refine ⟨0, fun fh file hOpen => ?_, fun key => peaceful_nil⟩
  obtain ⟨entry, hl, -⟩ := hOpen
  cases hl

/-! ## Writes and reads -/

theorem take_drop_stored (data : Bytes) (offset : Nat) (bytes : Bytes) :
    ((HostFs.stored data offset bytes).drop offset).take bytes.length = bytes := by
  unfold HostFs.stored
  split
  · rename_i hNil
    simp [hNil]
  · have hLen : (HostFs.resized (data.take offset) offset).length = offset := by
      simp only [HostFs.resized, length_append, length_take, length_replicate]
      omega
    rw [append_assoc, drop_append_of_le_length (by omega), drop_of_length_le
      (by omega), nil_append, take_left]

/-- The object that an operation on a handle works on. -/
theorem triple_handleFile {I : World → Prop} (hI : ∀ w, I w → OpenOn w.handles p fh file) {α : Type}
    {f : HandleEntry → Op α} {Q : α → World → Prop}
    (hf : ∀ entry, entry.file = some file → Triple env I (f entry) Q (fun _ => True)) :
    Triple env I (matchingHandle p fh .file >>= f) Q (fun _ => True) := by
  refine triple_bind (Q := fun entry w => I w ∧ entry.file = some file) ?_
    (fun entry => triple_fact fun hFile => hf entry hFile)
  refine triple_imp (triple_matchingHandle p fh .file) ?_ (fun _ _ => trivial)
  rintro entry w ⟨hw, hl, -⟩
  obtain ⟨entry', hl', -, -, hFile⟩ := hI w hw
  rw [hl, some.injEq] at hl'
  exact ⟨hw, hl' ▸ hFile⟩

theorem triple_writeFh (offset : Int) (data : Bytes) :
    Triple env (fun w => OpenOn w.handles p fh file) (writeFh p fh offset data)
      (fun n w => ((w.fs.inode file.ino).data.drop offset.toNat).take n = data.take n)
      (fun _ => True) := by
  refine triple_handleFile (fun _ hw => hw) fun entry hFile => ?_
  unfold openFileOf
  rw [hFile]
  have hU : Untimed (fun w : World => OpenOn w.handles p fh file) := fun _ _ hw => hw
  refine triple_then (triple_imp (triple_ensure fun _ hw => hw)
    (fun _ _ hw => hw.1) (fun _ _ => trivial)) ?_
  refine triple_bind (Q := fun f w => OpenOn w.handles p fh file ∧ f = file)
    (triple_pure fun _ hw => ⟨hw, rfl⟩) (fun f => triple_fact fun hf => ?_)
  subst hf
  refine triple_seq (triple_imp (triple_ensure fun _ hw => hw)
    (fun _ _ hw => hw.1) (fun _ _ => trivial)) <|
      triple_then ((keeps_query hU _).any) ?_
  refine triple_bind (Q := fun n w =>
    ((w.fs.inode f.ino).data.drop offset.toNat).take n = data.take n) ?_ (fun n => ?_)
  · refine (triple_update hU ?_).any
    intro w n fs hw hf
    cases hf
    simp only [HostFs.writeAt, HostFs.inode_modifyInode, if_true]
    have hLen : (data.take (min data.length (env.transfer w.calls))).length =
        min data.length (env.transfer w.calls) := by
      rw [length_take]
      omega
    have hStored := take_drop_stored (w.fs.inode f.ino).data offset.toNat
      (data.take (min data.length (env.transfer w.calls)))
    rwa [hLen] at hStored
  · exact triple_seq ((keeps_query (I := fun w =>
      ((w.fs.inode f.ino).data.drop offset.toNat).take n = data.take n) (fun _ _ hw => hw)
      _).weaken fun _ _ => trivial) (triple_pure fun _ hw => hw)

theorem triple_readFh {data : Bytes} (offset size : Int) :
    Triple env (fun w => OpenOn w.handles p fh file ∧ (w.fs.inode file.ino).data = data)
      (readFh p fh offset size)
      (fun bytes _ => bytes = (data.drop offset.toNat).take
        (min size env.limits.validated.maxReadBytes).toNat) (fun _ => True) := by
  refine triple_ask (triple_handleFile (fun _ hw => hw.1) fun entry hFile => ?_)
  unfold openFileOf
  rw [hFile]
  refine triple_then (triple_imp (triple_ensure fun _ hw => hw)
    (fun _ _ hw => hw.1) (fun _ _ => trivial)) ?_
  refine triple_bind (Q := fun f w => (OpenOn w.handles p fh file ∧
    (w.fs.inode file.ino).data = data) ∧ f = file) (triple_pure fun _ hw => ⟨hw, rfl⟩)
    (fun f => triple_fact fun hf => ?_)
  subst hf
  have hc : 0 < env.limits.validated.ioChunkBytes := Nat.lt_of_lt_of_le one_pos (le_max_right _ _)
  by_cases hOffset : 0 ≤ offset
  · exact (triple_readFileAt (E := fun _ => True) (fun _ _ hw => hw)
      (fun _ _ _ _ => trivial) (fun _ hw => hw.2) hOffset size hc).post (fun _ _ hw => hw.2)
  · unfold readFileAt
    rw [decide_eq_false hOffset]
    exact fun _ _ => trivial

/-! ## All handles on one path -/

theorem respond_ok {α : Type} {P : World → Prop} {x : Op α} {f : α → Response}
    {Q : α → World → Prop} (hx : Triple env P x Q (fun _ => True)) {w' : World}
    {response : Response} (hw : P w) (h : respond f x env w = (.ok response, w')) :
    ∃ a, response = f a ∧ Q a w' := by
  obtain ⟨a, s, ha, hrest⟩ := bind_ok h
  have hRun := hx w hw
  rw [ha] at hRun
  cases hrest
  exact ⟨a, rfl, hRun⟩

/-- A read after a write of the same file returns what the write stored. -/
theorem read_after_write {fh₁ fh₂ : Nat} {file₁ file₂ : Node} {w₁ w₂ w₃ : World} {offset size : Int}
    {data bytes : Bytes} {n : Nat} {ctx ctx' : Option FuseContext} (hIno : file₁.ino = file₂.ino)
    (hOpen : OpenOn w.handles p fh₁ file₁)
    (hWrite : exec (.writeFh p fh₁ offset data ctx) env w = (.ok (.number n), w₁))
    (hSame : (w₂.fs.inode file₁.ino).data = (w₁.fs.inode file₁.ino).data)
    (hOpen₂ : OpenOn w₂.handles p fh₂ file₂)
    (hRead : exec (.readFh p fh₂ offset size ctx') env w₂ = (.ok (.bytes bytes), w₃)) :
    bytes.take n = (data.take n).take (min size env.limits.validated.maxReadBytes).toNat := by
  have hCtx : ∀ {I : World → Prop} (ctx : Option FuseContext),
      Triple env I (requireContext ctx) (fun _ => I) (fun _ => True) :=
    fun ctx => (keeps_requireContext ctx).any
  obtain ⟨n', hn, hStored⟩ := respond_ok
    (triple_seq (hCtx ctx) <| triple_writeFh offset data) hOpen hWrite
  cases hn
  obtain ⟨bytes', hb, hBytes⟩ := respond_ok
    (triple_seq (hCtx ctx') <| triple_readFh offset size) ⟨hOpen₂, rfl⟩ hRead
  cases hb
  rw [hBytes, ← hIno, hSame, take_take, Nat.min_comm, ← take_take, hStored]

/-- An open of the file of `oneFile` with the flags. -/
def openSample (flags : Nat) : Request := .openAt [nameOf "f"] .file flags superuser

/-- An open for reading that finds the object of all handles. -/
theorem rejoins_of_read (loc : Loc) (node : Node) {flags : Nat} {c : FuseContext}
    (hBits : openAccessBits flags = .ok 4) (hRes : resolve env w.fs p = some loc)
    (hLeads : followNode env w.fs loc = .ok node)
    (hSame : ∀ e ∈ w.handles.entries, e.2.file = some node) :
    Rejoins env p w (.openAt p .file flags (some c)) := by
  rintro - fh file ⟨entry, hl, -, -, hFile⟩ bits loc' node' hBits' hRes' hLeads' -
  rw [hBits, ok.injEq] at hBits'
  rw [hRes, some.injEq] at hRes'
  subst hBits' hRes'
  rw [hLeads, ok.injEq] at hLeads'
  have hEntry := hSame ⟨fh, entry⟩ (Dict.mem_entries_iff.mpr hl)
  rw [hFile, some.injEq] at hEntry
  exact ⟨by rw [← hLeads', hEntry], (fun h => nomatch h)⟩

/-- Over every run whose opens of the path rejoin the open handles, all file handles on the
path hold one inode. So a read through one of them returns what a write through another one
has stored, as long as nothing else has changed the file, and the locks that are held
through them do not conflict. -/
theorem handles_agree_run {fs : HostFs} {requests : List Request}
    (hRun : Runs.Along (step env) (fun request w => Spares p request ∧ Rejoins env p w request)
      requests (started fs)) :
    let w := Runs.run (step env) requests (started fs)
    ∀ fh₁ file₁ fh₂ file₂, OpenOn w.handles p fh₁ file₁ → OpenOn w.handles p fh₂ file₂ →
      file₁.ino = file₂.ino ∧
      (∀ offset data ctx n w₁,
        exec (.writeFh p fh₁ offset data ctx) env w = (.ok (.number n), w₁) →
        ∀ later, let w₂ := Runs.run (step env) later w₁
        (w₂.fs.inode file₁.ino).data = (w₁.fs.inode file₁.ino).data →
        OpenOn w₂.handles p fh₂ file₂ →
        ∀ size ctx' bytes w₃,
          exec (.readFh p fh₂ offset size ctx') env w₂ = (.ok (.bytes bytes), w₃) →
          bytes.take n = (data.take n).take (min size env.limits.validated.maxReadBytes).toNat) ∧
      ∀ lock₁ ∈ LockTable.locksOf w.locks file₁.ino,
        ∀ lock₂ ∈ LockTable.locksOf w.locks file₂.ino,
          lock₁.conflicts lock₂.owner lock₂.first lock₂.last lock₂.typ = false := by
  intro w fh₁ file₁ fh₂ file₂ hOpen₁ hOpen₂
  obtain ⟨ino, hOne⟩ : Agree p w := Runs.run_invariant
    (fun request w hw hC => agree_exec hw hC.1 hC.2) (agree_started fs) hRun
  have hIno : file₁.ino = file₂.ino :=
    (hOne.same fh₁ file₁ hOpen₁).trans (hOne.same fh₂ file₂ hOpen₂).symm
  refine ⟨hIno, ?_, fun lock₁ h₁ lock₂ h₂ => ?_⟩
  · intro offset data ctx n w₁ hWrite later w₂ hSame hStill size ctx' bytes w₃ hRead
    exact read_after_write hIno hOpen₁ hWrite hSame hStill hRead
  · rw [← hIno] at h₂
    exact (hOne.peaceful file₁.ino).not_conflicts h₁ h₂

/-- Two handles that were opened for reading. -/
theorem handles_agree_run_of_reads :
    let w := Runs.run (step sampleEnv) [openSample 0, openSample 0] (started oneFile)
    w.handles.lookup 1 ≠ none ∧ w.handles.lookup 2 ≠ none ∧
      ∀ file₁ file₂, OpenOn w.handles [nameOf "f"] 1 file₁ → OpenOn w.handles [nameOf "f"] 2 file₂ →
        file₁.ino = file₂.ino := by
  have hRun : Runs.Along (step sampleEnv)
      (fun request w => Spares [nameOf "f"] request ∧ Rejoins sampleEnv [nameOf "f"] w request)
      [openSample 0, openSample 0] (started oneFile) := by
    refine ⟨⟨trivial, ?_⟩, ⟨trivial, ?_⟩, trivial⟩
    · exact rejoins_of_read ⟨.backing, [nameOf "f"]⟩ ⟨.file, 10⟩ rfl
        (by decide +kernel) (by decide +kernel) (by decide +kernel)
    · exact rejoins_of_read ⟨.backing, [nameOf "f"]⟩ ⟨.file, 10⟩ rfl
        (by decide +kernel) (by decide +kernel) (by decide +kernel)
  refine ⟨by decide +kernel, by decide +kernel, fun file₁ file₂ h₁ h₂ => ?_⟩
  exact (handles_agree_run hRun 1 file₁ 2 file₂ h₁ h₂).1

/-- A handle for reading stays at the backing file when an open for writing makes the copy: the
two handles hold different inodes, what is written through the second is not read through
the first, and both owners get their lock. -/
theorem copy_up_splits_handles :
    let opened := Runs.run (step sampleEnv) [openSample 0, openSample 2] (started oneFile)
    let changed := Runs.run (step sampleEnv)
      [.writeFh [nameOf "f"] 2 0 [9] superuser,
        .setlk [nameOf "f"] 1 5 0 9 fRdlck 100, .setlk [nameOf "f"] 2 6 0 9 fWrlck 101] opened
    (opened.handles.lookup 1).bind (·.file) = some ⟨.file, 10⟩ ∧
      (opened.handles.lookup 2).bind (·.file) = some ⟨.file, 110⟩ ∧
      (∃ w, readFh [nameOf "f"] 1 0 1 sampleEnv changed = (.ok [7], w)) ∧
      LockTable.locksOf changed.locks 10 = [⟨1, 5, 0, 9, fRdlck, 100⟩] ∧
      LockTable.locksOf changed.locks 110 = [⟨2, 6, 0, 9, fWrlck, 101⟩] := by
  refine ⟨by decide +kernel, by decide +kernel, ⟨_, Prod.ext ?_ rfl⟩, by decide +kernel,
    by decide +kernel⟩
  decide +kernel

end FabricFs.Overlay
