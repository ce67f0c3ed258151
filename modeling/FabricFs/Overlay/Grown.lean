import FabricFs.Overlay.SparseCopy
import FabricFs.Overlay.XattrTables

/-!
# What a copy-up adds

A copy-up only adds names to the copy-on-write tree, each with an inode of its own: what was
there before it is there after it, and nothing is written to the attribute store when the
source has no attributes for it (`Grown`). On a host whose calls do not fail the new object
is known at every step (`Copying`), and the finished copy agrees with its source (`Alike`,
`Mirrored`).

* `mirrored_copyRules`: the copy of one object.
* `mirrored_copyUpTree`: the copies of all objects below a path.
-/

namespace FabricFs.Overlay

open Lib Lib.Prog Server List Option

/-! ## New names -/

/-- Since `w₀` only names of copies at the paths of `A` have been added. -/
structure Grown (w₀ : World) (A : Set Path) (w : World) : Prop where
  get_old : ∀ loc node, w₀.fs.get loc = some node → w.fs.get loc = some node
  get_out : ∀ p ∉ A, w.fs.get ⟨.cow, p⟩ = w₀.fs.get ⟨.cow, p⟩
  tree_eq : ∀ root, root ≠ .cow → w.fs.tree root = w₀.fs.tree root
  inode_eq : ∀ ino ∈ w₀.fs.inos, w.fs.inode ino = w₀.fs.inode ino
  manifest_eq : w.fs.manifest = w₀.fs.manifest
  cache_eq : w.cache = w₀.cache

section Growth

variable {w₀ w₁ w : World} {A B : Set Path}

theorem Grown.refl (w : World) (A : Set Path) : Grown w A w :=
  ⟨fun _ _ h => h, fun _ _ => rfl, fun _ _ => rfl, fun _ _ => rfl, rfl, rfl⟩

theorem untimed_grown : Untimed (Grown w₀ A) :=
  fun _ _ h => ⟨h.get_old, h.get_out, h.tree_eq, h.inode_eq, h.manifest_eq, h.cache_eq⟩

theorem Grown.get_backing (h : Grown w₀ A w) (p : Path) :
    w.fs.get ⟨.backing, p⟩ = w₀.fs.get ⟨.backing, p⟩ := by
  rw [HostFs.get, h.tree_eq .backing (by decide)]
  rfl

theorem Grown.inos (h : Grown w₀ A w) {ino : Nat} (hIno : ino ∈ w₀.fs.inos) : ino ∈ w.fs.inos := by
  obtain ⟨loc, node, hGet, rfl⟩ := w₀.fs.mem_inos_iff.mp hIno
  exact w.fs.mem_inos (h.get_old loc node hGet)

theorem Grown.trans (h : Grown w₀ A w₁) (h' : Grown w₁ B w) (hSub : B ⊆ A) : Grown w₀ A w where
  get_old loc node hGet := h'.get_old loc node (h.get_old loc node hGet)
  get_out p hp := (h'.get_out p fun hB => hp (hSub hB)).trans (h.get_out p hp)
  tree_eq root hRoot := (h'.tree_eq root hRoot).trans (h.tree_eq root hRoot)
  inode_eq ino hIno := (h'.inode_eq ino (h.inos hIno)).trans (h.inode_eq ino hIno)
  manifest_eq := h'.manifest_eq.trans h.manifest_eq
  cache_eq := h'.cache_eq.trans h.cache_eq

theorem Grown.made (h : Grown w₀ A w) {p : Path} (hp : p ∈ A) {node : Node} {inode : Inode}
    {fs' : HostFs} (hm : Made w ⟨.cow, p⟩ node inode fs') :
    Grown w₀ A { w with fs := fs' } ∧ node.ino ∉ w₀.fs.inos := by
  have hFresh : node.ino ∉ w₀.fs.inos := fun hMem =>
    hm.fresh (mem_append_left _ (h.inos hMem))
  refine ⟨⟨fun loc found hGet => ?_, fun q hq => ?_,
    fun root hRoot => (hm.entered.tree_eq root hRoot).trans (h.tree_eq root hRoot),
    fun ino hIno => ?_, hm.entered.manifest_eq.trans h.manifest_eq, h.cache_eq⟩, hFresh⟩
  · have hOld := h.get_old loc found hGet
    rw [hm.entered.get_eq, if_neg]
    · exact hOld
    · rintro rfl
      rw [hm.entered.absent] at hOld
      cases hOld
  · rw [hm.entered.get_eq, if_neg]
    · exact h.get_out q hq
    · intro hSame
      cases hSame
      exact hq hp
  · rw [hm.inode_eq, if_neg]
    · exact h.inode_eq ino hIno
    · rintro rfl
      exact hFresh hIno

theorem Grown.modified (h : Grown w₀ A w) {ino : Nat} (hIno : ino ∉ w₀.fs.inos)
    (f : Inode → Inode) : Grown w₀ A { w with fs := w.fs.modifyInode ino f } := by
  refine ⟨h.get_old, h.get_out, h.tree_eq, fun i hi => ?_, h.manifest_eq, h.cache_eq⟩
  rw [HostFs.inode_modifyInode, if_neg]
  · exact h.inode_eq i hi
  · rintro rfl
    exact hIno hi

end Growth

/-! ## The new object -/

/-- The copy of the path is new, and its inode is `X`. -/
structure Copying (w₀ : World) (A : Set Path) (rel : Path) (node : Node) (X : Inode)
    (w : World) : Prop where
  grown : Grown w₀ A w
  fresh : node.ino ∉ w₀.fs.inos
  found : w.fs.get ⟨.cow, rel⟩ = some node
  inode_eq : w.fs.inode node.ino = X

/-- The path has no copy yet. -/
def Absent (w₀ : World) (A : Set Path) (rel : Path) (w : World) : Prop :=
  Grown w₀ A w ∧ w.fs.get ⟨.cow, rel⟩ = none

/-- The path has no copy yet, or one of the kind without contents and attributes. -/
def Blank (w₀ : World) (A : Set Path) (rel : Path) (kind : Kind) (w : World) : Prop :=
  Absent w₀ A rel w ∨ ∃ node X, Copying w₀ A rel node X w ∧ node.kind = kind ∧
    X.data = [] ∧ X.xattrs = ∅

section Object

variable {env : Env} {w₀ w : World} {A : Set Path} {rel : Path} {node : Node} {X : Inode}

variable {loc : Loc} {I : World → Prop}

theorem untimed_copying : Untimed (Copying w₀ A rel node X) :=
  fun w n h => ⟨untimed_grown w n h.grown, h.fresh, h.found, h.inode_eq⟩

theorem untimed_absent : Untimed (Absent w₀ A rel) := fun w n h => ⟨untimed_grown w n h.1, h.2⟩

theorem untimed_blank {kind : Kind} : Untimed (Blank w₀ A rel kind) := by
  rintro w n (h | ⟨node, X, h, hRest⟩)
  · exact .inl (untimed_absent w n h)
  · exact .inr ⟨node, X, untimed_copying w n h, hRest⟩

theorem Blank.grown {kind : Kind} (h : Blank w₀ A rel kind w) : Grown w₀ A w := by
  rcases h with h | ⟨node, X, h, -⟩
  · exact h.1
  · exact h.grown

theorem Copying.modified (h : Copying w₀ A rel node X w) (f : Inode → Inode) :
    Copying w₀ A rel node (f X) { w with fs := w.fs.modifyInode node.ino f } := by
  refine ⟨h.grown.modified h.fresh f, h.fresh, h.found, ?_⟩
  rw [HostFs.inode_modifyInode, if_pos rfl, h.inode_eq]

theorem Copying.nodeAt (h : Copying w₀ A rel node X w) {followLink : Bool}
    (hPlain : followLink = true → node.kind ≠ .symlink) :
    nodeAt env w.fs ⟨.cow, rel⟩ followLink = .ok node := by
  cases followLink with
  | false => exact w.fs.lookup_eq_ok.mpr h.found
  | true => exact followNode_of_not_symlink h.found (hPlain rfl)

theorem Copying.of_made (hw : Grown w₀ A w) (hRel : rel ∈ A) {fs' : HostFs}
    (hm : Made w ⟨.cow, rel⟩ node X fs') : Copying w₀ A rel node X { w with fs := fs' } := by
  obtain ⟨hGrown, hFresh⟩ := hw.made hRel hm
  exact ⟨hGrown, hFresh, by rw [hm.entered.get_eq, if_pos rfl], by rw [hm.inode_eq, if_pos rfl]⟩

/-! ## Names -/

theorem absent_createDir {p : Path} (hp : p ∈ A) (hNe : p ≠ rel) :
    Keeps env (Absent w₀ A rel) (createDir ⟨.cow, p⟩) := by
  refine keeps_createDir untimed_absent fun w node fs' hw _ hm => ⟨(hw.1.made hp hm).1, ?_⟩
  rw [hm.entered.get_eq, if_neg (by simpa using hNe.symm)]
  exact hw.2

theorem ne_nil_of_absent {fs : HostFs} {root : Root} (h : fs.get ⟨root, rel⟩ = none) :
    rel ≠ [] := by
  rintro rfl
  obtain ⟨v, hv, -⟩ := (fs.tree root).root_branch
  rw [HostFs.get, hv] at h
  cases h

theorem absent_parents (hSub : ∀ p, p <+: rel → p ∈ A) (hRel : rel ≠ []) :
    Keeps env (Absent w₀ A rel) (createDirAll (Loc.parent ⟨.cow, rel⟩)) := by
  refine keeps_createDirAll fun p hp => ?_
  have hPrefix : p <+: rel.dropLast := hp
  refine absent_createDir (hSub p (hPrefix.trans (List.dropLast_prefix rel))) ?_
  rintro rfl
  have hLength := hPrefix.length_le
  rw [length_dropLast] at hLength
  have hPos := length_pos_iff.mpr hRel
  omega

theorem blank_createDir {p : Path} (hp : p ∈ A) :
    Keeps env (Blank w₀ A rel .dir) (createDir ⟨.cow, p⟩) := by
  refine keeps_createDir untimed_blank fun w node fs' hw hk hm => ?_
  by_cases hNe : p = rel
  · subst hNe
    exact .inr ⟨node, _, .of_made hw.grown hp hm, hk, rfl, rfl⟩
  · have hGet : fs'.get ⟨.cow, rel⟩ = w.fs.get ⟨.cow, rel⟩ := by
      rw [hm.entered.get_eq, if_neg (by simpa using Ne.symm hNe)]
    rcases hw with hw | ⟨found, X, hw, hRest⟩
    · exact .inl ⟨(hw.1.made hp hm).1, hGet.trans hw.2⟩
    · refine .inr ⟨found, X, ⟨(hw.grown.made hp hm).1, hw.fresh, hGet.trans hw.found, ?_⟩, hRest⟩
      rw [hm.inode_eq, if_neg]
      · exact hw.inode_eq
      · intro hSame
        exact hm.fresh (mem_append_left _ (hSame ▸ w.fs.mem_inos hw.found))

theorem isSome_of_isDirAt {fs : HostFs} (h : isDirAt env fs loc = true) :
    (fs.get loc).isSome = true := by
  cases hg : fs.get loc with
  | some node => rfl
  | none => simp [isDirAt, followNode, follow, followAux, HostFs.lookup, hg] at h

/-- Whether a path leads to a directory decides how the program goes on. -/
theorem triple_isDirAt {E : World → Prop} {f : Bool → Op Unit} {Q : Unit → World → Prop}
    (hSome : Triple env (fun w => I w ∧ (w.fs.get loc).isSome = true) (f true) Q E)
    (hNone : Triple env I (f false) Q E) :
    Triple env I (probe (fun env w => isDirAt env w.fs loc) >>= f) Q E := by
  intro w hw
  rw [probe_bind_run]
  cases hd : isDirAt env w.fs loc with
  | true => exact hSome w ⟨hw, isSome_of_isDirAt hd⟩
  | false => exact hNone w hw

theorem triple_createDir (hDir : Keeps env I (createDir loc)) :
    Triple env I (createDir loc) (fun _ w => I w ∧ (w.fs.get loc).isSome = true) I := by
  intro w hw
  have hKeep := hDir w hw
  rcases hr : createDir loc env w with ⟨e | u, w'⟩
  · rw [hr] at hKeep
    exact hKeep
  · rw [hr] at hKeep
    refine ⟨hKeep, ?_⟩
    have hRun : (makeNode loc .dir (maskOff 0o777 env.processUmask) [] >>= fun _ => pure ()) env w =
        (.ok u, w') := hr
    obtain ⟨node, w₁, hNode, hPure⟩ := bind_ok hRun
    cases hPure
    obtain ⟨fs', hf, rfl⟩ := update_ok hNode
    obtain ⟨fs'', hMade, hPair⟩ := map_eq_ok.mp hf
    cases hPair
    rw [(HostFs.make_ok hMade).1.get_eq, if_pos rfl]
    rfl

theorem triple_createDirAll (hDir : ∀ p, p <+: loc.path → Keeps env I (createDir ⟨loc.root, p⟩)) :
    Triple env I (createDirAll loc) (fun _ w => I w ∧ (w.fs.get loc).isSome = true) I := by
  have hMake := triple_createDir (hDir loc.path (prefix_refl _))
  have hDone : ∀ e, Triple env I (do
      let isDir ← probe (fun env w => isDirAt env w.fs loc)
      if isDir then pure () else throw e)
      (fun _ w => I w ∧ (w.fs.get loc).isSome = true) I := fun e =>
    triple_isDirAt (triple_done) (triple_thrown)
  unfold createDirAll
  cases hp : loc.path.length with
  | zero =>
    unfold createDirAllAux
    refine triple_tryCatch hMake fun e => triple_isDirAt
      (triple_if (triple_done) ?_)
      (triple_if (triple_thrown) ?_)
    · exact triple_seq (triple_pure fun _ hw => hw.1) <| triple_tryCatch hMake hDone
    · exact triple_seq (triple_done) <| triple_tryCatch hMake hDone
  | succ fuel =>
    have hParents : Keeps env I (createDirAllAux loc.root fuel loc.path.dropLast) := by
      have hAll : Keeps env I (createDirAll ⟨loc.root, loc.path.dropLast⟩) :=
        keeps_createDirAll fun p hPre => hDir p (hPre.trans (List.dropLast_prefix _))
      rwa [createDirAll, length_dropLast, hp] at hAll
    unfold createDirAllAux
    refine triple_tryCatch hMake fun e => triple_isDirAt
      (triple_if (triple_done) ?_)
      (triple_if (triple_thrown) ?_)
    · exact triple_seq (hParents.pre (fun _ hw => hw.1)) <| triple_tryCatch hMake hDone
    · exact triple_seq hParents <| triple_tryCatch hMake hDone

/-- The directory that a copy-up makes. -/
theorem copying_createDirAll (hSub : ∀ p, p <+: rel → p ∈ A) :
    Triple env (Absent w₀ A rel) (createDirAll ⟨.cow, rel⟩)
      (fun _ w => ∃ node X, Copying w₀ A rel node X w ∧ node.kind = .dir ∧ X.xattrs = ∅)
      (fun _ => True) := by
  refine triple_conseq (triple_createDirAll fun p hp => blank_createDir (hSub p hp))
    (fun _ hw => .inl hw) ?_ (fun _ _ => trivial)
  rintro - w ⟨hw | ⟨node, X, hw, hk, -, hXattrs⟩, hSome⟩
  · rw [hw.2] at hSome
    cases hSome
  · exact ⟨node, X, hw, hk, hXattrs⟩

theorem copying_makeSymlink (hRel : rel ∈ A) (target : Bytes) :
    Triple env (Absent w₀ A rel) (makeSymlink target ⟨.cow, rel⟩)
      (fun _ w => ∃ node, node.kind = .symlink ∧
        Copying w₀ A rel node ⟨0o777, env.euid, env.egid, target, ∅⟩ w) (fun _ => True) :=
  triple_bind ((triple_makeNode untimed_absent
    (Q := fun node w => node.kind = .symlink ∧
      Copying w₀ A rel node ⟨0o777, env.euid, env.egid, target, ∅⟩ w)
    fun _ _ _ hw hk hm => ⟨hk, untimed_copying _ _ (.of_made hw.1 hRel hm)⟩).weaken
      (fun _ _ => trivial))
    (fun node => triple_pure fun _ hw => ⟨node, hw⟩)

/-- The empty file that a copy-up makes, or finds after an attempt that failed. -/
theorem copying_createFile (hRel : rel ∈ A) :
    Triple env (Blank w₀ A rel .file) (createFile ⟨.cow, rel⟩)
      (fun file w => file.kind = .file ∧ ∃ X, X.data = [] ∧ X.xattrs = ∅ ∧
        Copying w₀ A rel file X w) (Blank w₀ A rel .file) := by
  refine triple_createFile untimed_blank (fun w node fs' hw hk hm => ?_)
    (fun w node hw hSome hNode hDir => ?_)
  · exact ⟨hk, _, rfl, rfl, untimed_copying _ _ (.of_made hw.grown hRel hm)⟩
  · rcases hw with hw | ⟨found, X, hw, hk, hData, hXattrs⟩
    · rw [hw.2] at hSome
      cases hSome
    · rw [followNode_of_not_symlink hw.found (by simp [hk]), Except.ok.injEq] at hNode
      subst hNode
      refine ⟨hk, _, ?_, ?_, untimed_copying _ _ (hw.modified fun inode =>
        { inode with data := HostFs.resized inode.data 0 })⟩
      · simp [HostFs.resized]
      · exact hXattrs

end Object

/-! ## Calls that do not fail -/

section Calm

variable {env : Env} (hCalm : ∀ k, env.fault k = none) {P E : World → Prop} {α : Type}

include hCalm

theorem triple_calm_update {f : Env → World → Except Errno (α × HostFs)} {Q : α → World → Prop}
    (h : ∀ w, P w → ∃ a fs, f env w = .ok (a, fs) ∧
      Q a { w with fs := fs, calls := w.calls + 1 }) : Triple env P (update f) Q E := by
  intro w hw
  obtain ⟨a, fs, hf, hQ⟩ := h w hw
  simp only [update, hCalm, hf]
  exact hQ

theorem triple_calm_query (hP : Untimed P) {f : Env → World → Except Errno α} {a : α}
    (h : ∀ w, P w → f env w = .ok a) :
    Triple env P (query f) (fun b w => P w ∧ b = a) E := by
  intro w hw
  simp only [query, hCalm, h w hw]
  exact ⟨hP w _ hw, trivial⟩

variable {w₀ : World} {A : Set Path} {rel : Path} {node : Node} {X : Inode} {followLink : Bool}

/-! ## Attributes -/

/-- A call that changes the inode of the copy. -/
theorem copying_modify (g : Inode → Inode) {f : Env → World → Except Errno (Unit × HostFs)}
    (h : ∀ w, Copying w₀ A rel node X w → f env w = .ok ((), w.fs.modifyInode node.ino g)) :
    Triple env (Copying w₀ A rel node X) (update f) (fun _ => Copying w₀ A rel node (g X)) E :=
  triple_calm_update hCalm fun w hw =>
    ⟨(), _, h w hw, untimed_copying _ _ (hw.modified g)⟩

/-- The inode after `chown`. -/
def owned (node : Node) (uid gid : Nat) (inode : Inode) : Inode :=
  { inode with
    perm := HostFs.ownedMode node inode.perm
    uid := if uid = 2 ^ 32 - 1 then inode.uid else uid
    gid := if gid = 2 ^ 32 - 1 then inode.gid else gid }

theorem copying_preserveOwnership {info : Meta}
    (hPlain : info.kind ≠ .symlink → node.kind ≠ .symlink) :
    Triple env (Copying w₀ A rel node X) (preserveOwnership ⟨.cow, rel⟩ info)
      (fun _ => Copying w₀ A rel node (owned node info.uid info.gid X)) E := by
  refine triple_ask (triple_tryCatch (M := fun _ => False) ?_ fun _ => fun _ hw => hw.elim)
  refine copying_modify hCalm _ fun w hw => ?_
  rw [hw.nodeAt fun hFollow => hPlain (bne_iff_ne.mp hFollow)]
  rfl

theorem copying_setPermissions (hPlain : node.kind ≠ .symlink) (mode : Nat) :
    Triple env (Copying w₀ A rel node X) (setPermissions ⟨.cow, rel⟩ mode)
      (fun _ => Copying w₀ A rel node { X with perm := mode &&& 0o7777 }) E := by
  refine copying_modify hCalm (fun inode => { inode with perm := mode &&& 0o7777 }) fun w hw => ?_
  rw [followNode_of_not_symlink hw.found hPlain]
  rfl

theorem copying_writeXattr (hPlain : followLink = true → node.kind ≠ .symlink)
    (name value : Bytes) :
    Triple env (Copying w₀ A rel node X) (writeXattr ⟨.cow, rel⟩ name value followLink)
      (fun _ => Copying w₀ A rel node { X with xattrs := X.xattrs.insert name value }) E := by
  refine triple_tryCatch (M := fun _ => False) ?_ fun _ => fun _ hw => hw.elim
  refine copying_modify hCalm (fun inode => { inode with xattrs := inode.xattrs.insert name value })
    fun w hw => ?_
  simp only [hw.nodeAt hPlain, checkXattrFlags, Nat.zero_and, ne_eq, not_true_eq_false, false_and,
    if_false]
  rfl

/-! ## Attributes of the source -/

variable {source : Node}

variable {w w' : World} {info : Meta}

omit hCalm in
theorem Grown.original (env : Env) (h : Grown w₀ A w)
    (hSource : w₀.fs.get ⟨.backing, rel⟩ = some source)
    (hPlain : followLink = true → source.kind ≠ .symlink) :
    nodeAt env w.fs ⟨.backing, rel⟩ followLink = .ok source ∧
      w.fs.inode source.ino = w₀.fs.inode source.ino := by
  have hGet := h.get_old _ _ hSource
  refine ⟨?_, h.inode_eq _ (w₀.fs.mem_inos hSource)⟩
  cases followLink with
  | false => exact w.fs.lookup_eq_ok.mpr hGet
  | true => exact followNode_of_not_symlink hGet (hPlain rfl)

theorem grown_readXattr (hP : Untimed P) (hGrown : ∀ w, P w → Grown w₀ A w)
    (hSource : w₀.fs.get ⟨.backing, rel⟩ = some source)
    (hPlain : followLink = true → source.kind ≠ .symlink) (name : Bytes) :
    Triple env P (readXattr ⟨.backing, rel⟩ name followLink)
      (fun value w => P w ∧ value = (w₀.fs.inode source.ino).xattrs.lookup name) E := by
  cases hValue : (w₀.fs.inode source.ino).xattrs.lookup name with
  | some value =>
    have hGet : Triple env P (getXattr ⟨.backing, rel⟩ name followLink)
        (fun b w => P w ∧ b = value) (fun _ => False) := by
      refine triple_calm_query hCalm hP fun w hw => ?_
      obtain ⟨hNode, hInode⟩ := (hGrown w hw).original env hSource hPlain
      simp only [hNode, hInode, hValue]
    refine triple_tryCatch (M := fun _ => False) ?_ fun _ => fun _ hw => hw.elim
    refine triple_learn hGet fun _ _ => triple_learn hGet fun found hFound =>
      triple_pure fun w hw => ⟨hw, ?_⟩
    rw [hFound]
  | none =>
    intro w hw
    obtain ⟨hNode, hInode⟩ := (hGrown w hw).original env hSource hPlain
    have hRun : readXattr ⟨.backing, rel⟩ name followLink env w =
        (.ok none, { w with calls := w.calls + 1 }) := by
      simp only [readXattr, getXattr, tryCatch_run, bind_run, query, hCalm, hNode, hInode, hValue]
      rfl
    rw [hRun]
    exact ⟨hP w _ hw, rfl⟩

/-- One ACL of the source has been set on the copy. -/
def addAcl (table : XattrTable) (inode : Inode) (name : Bytes) : Inode :=
  match table.lookup name with
  | some value => { inode with xattrs := inode.xattrs.insert name value }
  | none => inode

theorem copying_copyAcls (hAcls : env.propagateAcls = true)
    (hSource : w₀.fs.get ⟨.backing, rel⟩ = some source)
    (hKind : node.kind = source.kind) (hPlain : followLink = true → source.kind ≠ .symlink) :
    Triple env (Copying w₀ A rel node X)
      (copyAcls ⟨.backing, rel⟩ ⟨.cow, rel⟩ followLink followLink)
      (fun _ => Copying w₀ A rel node
        (aclNames.foldl (addAcl (w₀.fs.inode source.ino).xattrs) X)) E := by
  refine triple_ask ?_
  rw [onlyIf, if_pos hAcls]
  unfold copyAclXattrs
  generalize aclNames = names
  induction names generalizing X with
  | nil => exact triple_done
  | cons name names ih =>
    refine triple_seq (triple_learn (grown_readXattr hCalm untimed_copying (fun _ hw => hw.grown)
      hSource hPlain name) fun value hValue => ?_) ih
    rw [addAcl, ← hValue]
    cases value with
    | none => exact triple_done
    | some value => exact copying_writeXattr hCalm (hKind ▸ hPlain) name value

/-- The copy agrees with the source in everything that a request can report. -/
structure Alike (kind : Kind) (original copy : Inode) : Prop where
  perm : copy.perm = original.perm
  uid : copy.uid = original.uid
  gid : copy.gid = original.gid
  data : kind ≠ .dir → copy.data = original.data
  acls : ∀ name, isAclName name = true → copy.xattrs.lookup name = original.xattrs.lookup name

/-- The values that a host gives to an object. -/
structure Ordinary (kind : Kind) (inode : Inode) : Prop where
  perm : inode.perm &&& 0o7777 = inode.perm
  link : kind = .symlink → inode.perm = 0o777
  uid : inode.uid ≠ 2 ^ 32 - 1
  gid : inode.gid ≠ 2 ^ 32 - 1

omit hCalm in
theorem lookup_foldl_addAcl (table : XattrTable) (names : List Bytes) (inode : Inode)
    (name : Bytes) : (names.foldl (addAcl table) inode).xattrs.lookup name =
      if name ∈ names then (table.lookup name).or (inode.xattrs.lookup name)
      else inode.xattrs.lookup name := by
  induction names generalizing inode with
  | nil => simp
  | cons first names ih =>
    rw [foldl_cons, ih]
    have hFirst : (addAcl table inode first).xattrs.lookup name =
        if name = first then (table.lookup name).or (inode.xattrs.lookup name)
        else inode.xattrs.lookup name := by
      unfold addAcl
      split
      · rename_i value hValue
        rw [Dict.lookup_insert_eq]
        split
        · rename_i hName
          rw [hName, hValue, some_or]
        · rfl
      · rename_i hValue
        split
        · rename_i hName
          rw [hName, hValue, none_or]
        · rfl
    rw [hFirst]
    by_cases hName : name = first
    · subst hName
      cases table.lookup name <;> simp
    · simp [hName]

omit hCalm in
theorem foldl_addAcl (table : XattrTable) (names : List Bytes) (inode : Inode) :
    names.foldl (addAcl table) inode =
      { inode with xattrs := (names.foldl (addAcl table) inode).xattrs } := by
  induction names generalizing inode with
  | nil => rfl
  | cons first names ih =>
    rw [foldl_cons, ih]
    unfold addAcl
    split <;> rfl

omit hCalm in
/-- An inode without attributes that gets those of the source. -/
theorem alike_foldl_addAcl {kind : Kind} {original inode : Inode}
    (hPerm : inode.perm = original.perm) (hUid : inode.uid = original.uid)
    (hGid : inode.gid = original.gid) (hData : kind ≠ .dir → inode.data = original.data)
    (hXattrs : inode.xattrs = ∅) :
    Alike kind original (aclNames.foldl (addAcl original.xattrs) inode) := by
  rw [foldl_addAcl]
  refine ⟨hPerm, hUid, hGid, hData, fun name hName => ?_⟩
  show (aclNames.foldl (addAcl original.xattrs) inode).xattrs.lookup name = _
  rw [lookup_foldl_addAcl, if_pos (contains_iff_mem.mp hName), hXattrs, AList.lookup_empty,
    or_none]

theorem copying_copyAttributes (hAcls : env.propagateAcls = true)
    (hSource : w₀.fs.get ⟨.backing, rel⟩ = some source) (hKind : node.kind = source.kind)
    (hPlain : source.kind ≠ .symlink) (hOrdinary : Ordinary source.kind (w₀.fs.inode source.ino))
    (hData : source.kind ≠ .dir → X.data = (w₀.fs.inode source.ino).data) (hXattrs : X.xattrs = ∅)
    (hInfo : info = w₀.fs.metaOf source) :
    Triple env (Copying w₀ A rel node X) (copyAttributes ⟨.backing, rel⟩ ⟨.cow, rel⟩ info)
      (fun _ w => ∃ Y, Alike source.kind (w₀.fs.inode source.ino) Y ∧
        Copying w₀ A rel node Y w) E := by
  subst hInfo
  have hNode : node.kind ≠ .symlink := hKind ▸ hPlain
  refine triple_seq (copying_preserveOwnership hCalm fun _ => hNode) <|
    triple_seq (copying_setPermissions hCalm hNode _) <|
    (copying_copyAcls hCalm hAcls hSource hKind fun _ => hPlain).post (fun _ w hw => ⟨_, ?_, hw⟩)
  refine alike_foldl_addAcl hOrdinary.perm ?_ ?_ hData hXattrs
  · exact if_neg hOrdinary.uid
  · exact if_neg hOrdinary.gid

/-- The copy is finished. -/
def Copied (w₀ : World) (A : Set Path) (rel : Path) (source : Node) (w : World) : Prop :=
  ∃ node Y, node.kind = source.kind ∧ Alike source.kind (w₀.fs.inode source.ino) Y ∧
    Copying w₀ A rel node Y w

omit hCalm in
theorem untimed_copied : Untimed (Copied w₀ A rel source) :=
  fun w n ⟨node, Y, hKind, hAlike, hw⟩ => ⟨node, Y, hKind, hAlike, untimed_copying w n hw⟩

omit hCalm in
theorem Copied.grown (h : Copied w₀ A rel source w) : Grown w₀ A w := by
  obtain ⟨node, Y, hKind, hAlike, hw⟩ := h
  exact hw.grown

theorem copying_linkAttributes (hAcls : env.propagateAcls = true)
    (hSource : w₀.fs.get ⟨.backing, rel⟩ = some source) (hLink : source.kind = .symlink)
    (hKind : node.kind = source.kind) (hOrdinary : Ordinary source.kind (w₀.fs.inode source.ino))
    (hPerm : X.perm = 0o777) (hData : X.data = (w₀.fs.inode source.ino).data)
    (hXattrs : X.xattrs = ∅) (hInfo : info = w₀.fs.metaOf source) :
    Triple env (Copying w₀ A rel node X) (do
      preserveOwnership ⟨.cow, rel⟩ info
      copyAcls ⟨.backing, rel⟩ ⟨.cow, rel⟩ false false)
      (fun _ => Copied w₀ A rel source) E := by
  subst hInfo
  have hNever : false = true → source.kind ≠ .symlink := fun h => nomatch h
  have hInfo : (w₀.fs.metaOf source).kind ≠ .symlink → node.kind ≠ .symlink :=
    fun h => absurd hLink h
  refine triple_seq (copying_preserveOwnership hCalm hInfo) <|
    (copying_copyAcls hCalm hAcls hSource hKind hNever).post
      (fun _ w hw => ⟨node, _, hKind, ?_, hw⟩)
  refine alike_foldl_addAcl ?_ ?_ ?_ (fun _ => hData) hXattrs
  · rw [hOrdinary.link hLink]
    simp only [owned, HostFs.ownedMode, Node.isDir, hKind, hLink, hPerm]
    decide
  · exact if_neg hOrdinary.uid
  · exact if_neg hOrdinary.gid

/-! ## Contents -/

omit hCalm

/-- The file has the contents of the source and no attributes yet. -/
def Filled (w₀ : World) (A : Set Path) (rel : Path) (original : Inode) (w : World) : Prop :=
  ∃ node X, Copying w₀ A rel node X w ∧ node.kind = .file ∧ X.data = original.data ∧ X.xattrs = ∅

theorem grown_openFile (hP : Untimed P) (hGrown : ∀ w, P w → Grown w₀ A w)
    (hSource : w₀.fs.get ⟨.backing, rel⟩ = some source) (hPlain : source.kind ≠ .symlink) :
    Triple env P (openFile ⟨.backing, rel⟩ false) (fun file w => P w ∧ file = source) P := by
  refine (triple_query hP _).post ?_
  rintro file w ⟨hw, n, hf⟩
  obtain ⟨hNode, -⟩ := (hGrown w hw).original env hSource (fun _ : true = true => hPlain)
  have hFollow : followNode env w.fs ⟨.backing, rel⟩ = .ok source := hNode
  simp only [hFollow, Bool.false_and, Bool.false_eq_true, if_false] at hf
  exact ⟨hw, (Except.ok.inj hf).symm⟩

theorem stored_nil (data : Bytes) : HostFs.stored [] 0 data = data := by
  unfold HostFs.stored
  split
  · rename_i h
    exact h.symm
  · simp [HostFs.resized]

/-- All bytes of the source are stored in the empty file. -/
theorem Copying.filled {file : Node} (h : Copying w₀ A rel file X w) (hKind : file.kind = .file)
    (hData : X.data = []) (hXattrs : X.xattrs = ∅) {original : Inode} {n : Nat} :
    Filled w₀ A rel original
      { w with fs := w.fs.writeAt file.ino 0 original.data, calls := n } := by
  refine ⟨file, _, untimed_copying _ _ (h.modified fun inode =>
    { inode with data := HostFs.stored inode.data 0 original.data }), hKind, ?_, hXattrs⟩
  rw [hData, stored_nil]

theorem filled_tryReflinkCopy (hRel : rel ∈ A)
    (hSource : w₀.fs.get ⟨.backing, rel⟩ = some source) (hPlain : source.kind ≠ .symlink) :
    Triple env (Blank w₀ A rel .file) (tryReflinkCopy ⟨.backing, rel⟩ ⟨.cow, rel⟩)
      (fun _ => Filled w₀ A rel (w₀.fs.inode source.ino)) (Blank w₀ A rel .file) := by
  refine triple_learn (grown_openFile untimed_blank (fun _ hw => hw.grown) hSource hPlain)
    fun srcFile hFile => triple_bind (copying_createFile hRel) fun file => ?_
  subst hFile
  rintro w ⟨hKind, X, hData, hXattrs, hw⟩
  refine (triple_update untimed_copying (Q := fun _ =>
    Filled w₀ A rel (w₀.fs.inode srcFile.ino)) fun v u fs hv hf => ?_).weaken
      (fun v hv => .inr ⟨file, X, hv, hKind, hData, hXattrs⟩) w hw
  split at hf
  · cases hf
    rw [hv.grown.inode_eq _ (w₀.fs.mem_inos hSource)]
    exact hv.filled hKind hData hXattrs
  · cases hf

theorem filled_fsCopy (hRel : rel ∈ A)
    (hSource : w₀.fs.get ⟨.backing, rel⟩ = some source) (hPlain : source.kind ≠ .symlink) :
    Triple env (Blank w₀ A rel .file) (fsCopy ⟨.backing, rel⟩ ⟨.cow, rel⟩)
      (fun _ => Filled w₀ A rel (w₀.fs.inode source.ino)) (fun _ => True) := by
  refine triple_learn ((grown_openFile untimed_blank (fun _ hw => hw.grown) hSource
    hPlain).any) fun srcFile hFile => ?_
  subst hFile
  refine triple_bind ((keeps_fileMetadata untimed_blank _).any) fun info =>
    triple_seq ((keeps_ensure _ _).any) <|
    triple_bind ((copying_createFile hRel).any) fun file => ?_
  rintro w ⟨hKind, X, hData, hXattrs, hw⟩
  refine triple_bind (Q := fun _ => Copying w₀ A rel file { X with perm := info.perm &&& 0o7777 })
    ((triple_update untimed_copying fun v u fs hv hf => ?_).any)
    (fun _ => fun v hv => ?_) w hw
  · cases hf
    exact untimed_copying _ _ (hv.modified fun inode => { inode with perm := info.perm &&& 0o7777 })
  · simp only [copyData]
    cases env.fault v.calls with
    | some fault => trivial
    | none =>
      simp only [hv.grown.inode_eq _ (w₀.fs.mem_inos hSource)]
      exact hv.filled hKind hData hXattrs

/-! ## Sparse files -/

theorem modifyInode_data_self (fs : HostFs) (ino : Nat) :
    fs.modifyInode ino (fun inode => { inode with data := (fs.inode ino).data }) = fs := by
  unfold HostFs.modifyInode HostFs.setInode
  congr 1
  funext i
  split
  · rename_i h
    subst h
    rfl
  · rfl

theorem modifyInode_writeAt (fs : HostFs) (ino offset : Nat) (bytes data : Bytes) :
    (fs.writeAt ino offset bytes).modifyInode ino (fun inode => { inode with data := data }) =
      fs.modifyInode ino (fun inode => { inode with data := data }) := by
  unfold HostFs.writeAt HostFs.modifyInode HostFs.setInode
  congr 1
  funext i
  split
  · rename_i h
    subst h
    simp
  · rename_i h
    simp [h]

/-- The loop over the data regions only changes the contents of the copy. -/
theorem copyRegions_data {src dst : Node} (hApart : src.ino ≠ dst.ino) {size rounds offset : Nat}
    (h : copyRegions src dst size rounds offset env w = (.ok (), w')) :
    ∃ data, w'.fs = w.fs.modifyInode dst.ino (fun inode => { inode with data := data }) := by
  induction rounds generalizing offset w with
  | zero =>
    cases h
    exact ⟨_, (modifyInode_data_self w'.fs dst.ino).symm⟩
  | succ rounds ih =>
    have hSelf : w' = w →
        ∃ data, w'.fs = w.fs.modifyInode dst.ino (fun inode => { inode with data := data }) := by
      rintro rfl
      exact ⟨_, (modifyInode_data_self w'.fs dst.ino).symm⟩
    rw [copyRegions] at h
    by_cases hEnd : size ≤ offset
    · rw [if_pos hEnd] at h
      cases h
      exact hSelf rfl
    · rw [if_neg hEnd, ask_bind_run, probe_bind_run] at h
      cases hFound : env.seekData (w.fs.inode src.ino) offset with
      | none =>
        rw [hFound] at h
        cases h
        exact hSelf rfl
      | some found =>
        rw [hFound] at h
        dsimp only at h
        by_cases hLast : size ≤ found
        · rw [if_pos hLast] at h
          cases h
          exact hSelf rfl
        · rw [if_neg hLast, probe_bind_run] at h
          obtain ⟨n, w₁, hCopy, hRest⟩ := bind_ok h
          obtain ⟨data, hData⟩ := ih hRest
          refine ⟨data, ?_⟩
          rw [hData, copyFileRangeAt_ok hApart hCopy, modifyInode_writeAt]

theorem Copying.of_fields (h : Copying w₀ A rel node X w) (hFs : w'.fs = w.fs)
    (hCache : w'.cache = w.cache) : Copying w₀ A rel node X w' := by
  obtain ⟨⟨hOld, hOut, hTree, hInode, hManifest, hCached⟩, hFresh, hFound, hIs⟩ := h
  rw [← hFs] at hOld hOut hTree hInode hManifest hFound hIs
  exact ⟨⟨hOld, hOut, hTree, hInode, hManifest, hCache.trans hCached⟩, hFresh, hFound, hIs⟩

theorem Copying.regions (h : Copying w₀ A rel node X w) {src : Node} (hApart : src.ino ≠ node.ino)
    {size rounds offset : Nat} (hRun : copyRegions src node size rounds offset env w = (.ok
    (), w')) :
    ∃ data, Copying w₀ A rel node { X with data := data } w' := by
  obtain ⟨data, hFs⟩ := copyRegions_data hApart hRun
  have hCache : Keeps env (fun v => v.cache = w.cache) (copyRegions src node size rounds offset) :=
    keeps_copyRegions (fun _ _ h => h) (fun _ _ h => h) _ _ _ _
  have hCache' := keeps_iff.mp hCache w rfl
  rw [hRun] at hCache'
  exact ⟨data, (h.modified fun inode => { inode with data := data }).of_fields hFs hCache'⟩

theorem filled_copySparseFile (hSeeks : PosixSeeks env) (hRel : rel ∈ A)
    (hSource : w₀.fs.get ⟨.backing, rel⟩ = some source) (hPlain : source.kind ≠ .symlink)
    (hHoles : NoDataHidden env (w₀.fs.inode source.ino) 0) :
    Triple env (Blank w₀ A rel .file) (copySparseFile ⟨.backing, rel⟩ ⟨.cow, rel⟩)
      (fun _ => Filled w₀ A rel (w₀.fs.inode source.ino)) (fun _ => True) := by
  refine triple_learn ((grown_openFile untimed_blank (fun _ hw => hw.grown) hSource
    hPlain).any) fun srcFile hFile => ?_
  subst hFile
  refine triple_bind ((copying_createFile hRel).any) fun file => ?_
  rintro w ⟨hKind, X, hData, hXattrs, hw⟩
  have hApart : srcFile.ino ≠ file.ino := fun hSame =>
    hw.fresh (hSame ▸ w₀.fs.mem_inos hSource)
  rcases hr : (fileMetadata srcFile >>= fun srcMeta => setLen file srcMeta.size >>= fun _ =>
    copyRegions srcFile file srcMeta.size (srcMeta.size + 1) 0) env w with ⟨e | u, w'⟩
  · trivial
  · obtain ⟨info, w₁, hInfo, hRun⟩ := bind_ok hr
    obtain ⟨u, w₂, hResize, hLoop⟩ := bind_ok hRun
    obtain ⟨hMeta, rfl⟩ := query_ok hInfo
    obtain ⟨fs, hLength, rfl⟩ := update_ok hResize
    cases hMeta
    cases hLength
    have hInode : w.fs.inode srcFile.ino = w₀.fs.inode srcFile.ino :=
      hw.grown.inode_eq _ (w₀.fs.mem_inos hSource)
    have hSize : (w.fs.metaOf srcFile).size = (w₀.fs.inode srcFile.ino).data.length := by
      rw [← hInode]
      rfl
    simp only [hSize] at hLoop
    set length := (w₀.fs.inode srcFile.ino).data.length with hLengthDef
    have hStart : CopiedUpTo (w₀.fs.inode srcFile.ino).data
        ((w.fs.setLen file.ino length).inode file.ino).data 0 := by
      simp [CopiedUpTo, HostFs.setLen, HostFs.modifyInode, HostFs.setInode, hw.inode_eq, hData,
        hLengthDef]
    have hSource₁ : (w.fs.setLen file.ino length).inode srcFile.ino = w₀.fs.inode srcFile.ino := by
      simp [HostFs.setLen, HostFs.modifyInode, HostFs.setInode, hApart, hInode]
    have hFull := (copyRegions_faithful_iff hSeeks hApart (by omega) hSource₁ hStart hLoop).mpr
      hHoles
    have hResized : Copying w₀ A rel file _ _ := untimed_copying _ (w.calls + 1 + 1)
      (hw.modified fun inode => { inode with data := HostFs.resized inode.data length })
    obtain ⟨data, hCopied⟩ := hResized.regions hApart hLoop
    refine ⟨file, _, hCopied, hKind, ?_, hXattrs⟩
    rw [hCopied.inode_eq] at hFull
    exact hFull

include hCalm

theorem filled_copyFileFallback (hSeeks : PosixSeeks env) (hRel : rel ∈ A)
    (hSource : w₀.fs.get ⟨.backing, rel⟩ = some source) (hPlain : source.kind ≠ .symlink)
    (hHoles : env.preserveSparseFiles = true → env.sparse (w₀.fs.inode source.ino) = true →
      NoDataHidden env (w₀.fs.inode source.ino) 0) :
    Triple env (Blank w₀ A rel .file) (copyFileFallback ⟨.backing, rel⟩ ⟨.cow, rel⟩)
      (fun _ => Filled w₀ A rel (w₀.fs.inode source.ino)) (fun _ => True) := by
  refine triple_ask ?_
  refine triple_bind (Q := fun sparse w => Blank w₀ A rel .file w ∧
    (sparse = true → env.preserveSparseFiles = true ∧
      env.sparse (w₀.fs.inode source.ino) = true)) (triple_ite (fun hPreserve => ?_) fun _ =>
        triple_pure fun _ hw => ⟨hw, fun h => nomatch h⟩) fun sparse =>
    triple_fact fun hSparse => ?_
  · refine triple_tryCatch (M := fun _ => False) ((triple_calm_query hCalm
      (a := env.sparse (w₀.fs.inode source.ino)) untimed_blank fun w hw => ?_).post
        (fun sparse w hw => ⟨hw.1, fun h => ⟨hPreserve, hw.2 ▸ h⟩⟩))
      fun _ => fun _ hw => hw.elim
    obtain ⟨hNode, hInode⟩ := hw.grown.original env hSource (fun _ : true = true => hPlain)
    have hFollow : followNode env w.fs ⟨.backing, rel⟩ = .ok source := hNode
    rw [hFollow, Except.map, hInode]
  · refine triple_ite (fun h => ?_) fun _ => filled_fsCopy hRel hSource hPlain
    obtain ⟨hPreserve, hHoled⟩ := hSparse h
    exact filled_copySparseFile hSeeks hRel hSource hPlain (hHoles hPreserve hHoled)

theorem filled_copyWithReflinkFallback (hSeeks : PosixSeeks env) (hRel : rel ∈ A)
    (hSource : w₀.fs.get ⟨.backing, rel⟩ = some source) (hPlain : source.kind ≠ .symlink)
    (hHoles : env.preserveSparseFiles = true → env.sparse (w₀.fs.inode source.ino) = true →
      NoDataHidden env (w₀.fs.inode source.ino) 0) :
    Triple env (Blank w₀ A rel .file) (copyWithReflinkFallback ⟨.backing, rel⟩ ⟨.cow, rel⟩)
      (fun _ => Filled w₀ A rel (w₀.fs.inode source.ino)) (fun _ => True) := by
  have hFallback := filled_copyFileFallback hCalm hSeeks hRel hSource hPlain hHoles
  exact triple_ask (triple_if
    (triple_tryCatch (filled_tryReflinkCopy hRel hSource hPlain) fun _ => hFallback)
    hFallback)

/-! ## Objects -/

omit hCalm

/-- What a copy-up needs of an object to copy it as it is. -/
structure Portable (env : Env) (kind : Kind) (inode : Inode) : Prop where
  ordinary : Ordinary kind inode
  kind_ne : kind ≠ .special
  bare : ∀ name ∈ inode.xattrs.keys, isAclName name = true ∨ ¬ Utf8 name
  holes : env.preserveSparseFiles = true → env.sparse inode = true → NoDataHidden env inode 0

/-- The copy of the path, if it is new, agrees with the backing object. -/
def Mirrored (w₀ : World) (rel : Path) (w : World) : Prop :=
  ∀ node, w.fs.get ⟨.cow, rel⟩ = some node → w₀.fs.get ⟨.cow, rel⟩ = none →
    node.ino ∉ w₀.fs.inos ∧ ∃ source, w₀.fs.get ⟨.backing, rel⟩ = some source ∧
      node.kind = source.kind ∧
      Alike source.kind (w₀.fs.inode source.ino) (w.fs.inode node.ino)

theorem Copied.mirrored (h : Copied w₀ A rel source w)
    (hSource : w₀.fs.get ⟨.backing, rel⟩ = some source) : Mirrored w₀ rel w := by
  obtain ⟨node, Y, hKind, hAlike, hw⟩ := h
  intro found hFound _
  rw [hw.found, some.injEq] at hFound
  subst hFound
  rw [hw.inode_eq]
  exact ⟨hw.fresh, source, hSource, hKind, hAlike⟩

/-- A source without attributes leaves the store as it is. -/
theorem copied_seedXattrs (hSource : w₀.fs.get ⟨.backing, rel⟩ = some source)
    (hPortable : Portable env source.kind (w₀.fs.inode source.ino))
    (hPlain : followLink = true → source.kind ≠ .symlink) :
    Keeps env (Copied w₀ A rel source) (seedXattrs ⟨.backing, rel⟩ ⟨.cow, rel⟩ followLink) := by
  refine keeps_seedXattrs_of_bare untimed_copied fun w node hw hNode => ?_
  obtain ⟨hSame, hInode⟩ := hw.grown.original env hSource hPlain
  rw [hSame, Except.ok.injEq] at hNode
  subst hNode
  rw [hInode]
  exact hPortable.bare

include hCalm

theorem copied_copyLink (hAcls : env.propagateAcls = true) (hRel : rel ∈ A)
    (hSource : w₀.fs.get ⟨.backing, rel⟩ = some source) (hLink : source.kind = .symlink)
    (hPortable : Portable env source.kind (w₀.fs.inode source.ino))
    (hInfo : info = w₀.fs.metaOf source) :
    Triple env (Absent w₀ A rel) (copyLink ⟨.backing, rel⟩ ⟨.cow, rel⟩ info)
      (fun _ => Copied w₀ A rel source) (fun _ => True) := by
  have hNever : false = true → source.kind ≠ .symlink := fun h => nomatch h
  refine triple_learn (triple_calm_query hCalm (a := (w₀.fs.inode source.ino).data)
    untimed_absent fun w hw => ?_) fun target hTarget =>
      triple_then (copying_makeSymlink hRel target) ?_
  · obtain ⟨hNode, hInode⟩ := hw.1.original env hSource hNever
    have hLookup : w.fs.lookup ⟨.backing, rel⟩ = .ok source := hNode
    simp only [hLookup, hLink, if_true, hInode]
  · rintro w ⟨node, hk, hw⟩
    exact copying_linkAttributes hCalm hAcls hSource hLink (hk.trans hLink.symm)
      hPortable.ordinary rfl hTarget rfl hInfo w hw

theorem copied_copyDirNode (hAcls : env.propagateAcls = true) (hSub : ∀ p, p <+: rel → p ∈ A)
    (hSource : w₀.fs.get ⟨.backing, rel⟩ = some source) (hDir : source.kind = .dir)
    (hPortable : Portable env source.kind (w₀.fs.inode source.ino))
    (hInfo : info = w₀.fs.metaOf source) :
    Triple env (Absent w₀ A rel) (copyDirNode ⟨.backing, rel⟩ ⟨.cow, rel⟩ info)
      (fun _ => Copied w₀ A rel source) (fun _ => True) := by
  refine triple_then (copying_createDirAll hSub) ?_
  rintro w ⟨node, X, hw, hk, hXattrs⟩
  have hKind : node.kind = source.kind := hk.trans hDir.symm
  exact (copying_copyAttributes hCalm hAcls hSource hKind (by simp [hDir])
    hPortable.ordinary (fun h => absurd hDir h) hXattrs hInfo).post
      (fun _ _ ⟨Y, hAlike, hw⟩ => ⟨node, Y, hKind, hAlike, hw⟩) w hw

theorem copied_copyRegular (hAcls : env.propagateAcls = true) (hSeeks : PosixSeeks env)
    (hRel : rel ∈ A) (hSource : w₀.fs.get ⟨.backing, rel⟩ = some source)
    (hFile : source.kind = .file) (hPortable : Portable env source.kind (w₀.fs.inode source.ino))
    (hInfo : info = w₀.fs.metaOf source) :
    Triple env (Absent w₀ A rel) (copyRegular ⟨.backing, rel⟩ ⟨.cow, rel⟩ info)
      (fun _ => Copied w₀ A rel source) (fun _ => True) := by
  have hPlain : source.kind ≠ .symlink := by simp [hFile]
  refine triple_then ((filled_copyWithReflinkFallback hCalm hSeeks hRel hSource hPlain
    hPortable.holes).pre (fun _ hw => .inl hw)) ?_
  rintro w ⟨node, X, hw, hk, hData, hXattrs⟩
  have hKind : node.kind = source.kind := hk.trans hFile.symm
  exact (copying_copyAttributes hCalm hAcls hSource hKind hPlain
    hPortable.ordinary (fun _ => hData) hXattrs hInfo).post
      (fun _ _ ⟨Y, hAlike, hw⟩ => ⟨node, Y, hKind, hAlike, hw⟩) w hw

end Calm

/-! ## Routines -/

/-- The paths above and below a path. -/
def Around (rel : Path) : Set Path := {q | q <+: rel ∨ rel <+: q}

/-- Copies have been added around the path, and those below it agree with their sources. -/
def Mirroring (w₀ : World) (rel : Path) (w : World) : Prop :=
  Grown w₀ (Around rel) w ∧ ∀ t, Mirrored w₀ (rel ++ t) w

/-- The copies at the paths exist. -/
def Kept (Q : Set Path) (w : World) : Prop := ∀ q ∈ Q, (w.fs.get ⟨.cow, q⟩).isSome = true

section Routines

variable {env : Env} {w₀ w₁ w : World} {rel p : Path} {Q : Set Path}

variable {q : Path}

theorem untimed_mirroring : Untimed (Mirroring w₀ rel) :=
  fun w n h => ⟨untimed_grown w n h.1, h.2⟩

theorem mirroring_start (w : World) (rel : Path) : Mirroring w rel w := by
  refine ⟨.refl w _, fun t node hNode hNone => ?_⟩
  rw [hNode] at hNone
  cases hNone

theorem around_of_prefix (hp : rel <+: p) (hq : q <+: p) : q ∈ Around rel :=
  prefix_or_prefix_of_prefix hq hp

theorem prefix_dropLast (h : q <+: p) (hNe : q ≠ p) : q <+: p.dropLast := by
  obtain ⟨r, rfl⟩ := h
  have hr : r ≠ [] := by
    rintro rfl
    exact hNe (append_nil q).symm
  rw [dropLast_append_of_ne_nil hr]
  exact prefix_append _ _

theorem isSome_of_prefix {fs : HostFs} (hq : q <+: p) (h : (fs.get ⟨.cow, p⟩).isSome = true) :
    (fs.get ⟨.cow, q⟩).isSome = true := by
  obtain ⟨r, rfl⟩ := hq
  cases hg : fs.get ⟨.cow, q⟩ with
  | some node => rfl
  | none =>
    have hNone : fs.get ⟨.cow, q ++ r⟩ = none := Tree.get_append_eq_none hg r
    rw [hNone] at h
    cases h

/-- One more finished copy, of an object whose parent has been copied before. -/
theorem Mirroring.copied (h : Mirroring w₀ rel w₁) {source : Node} (hBelow : rel <+: p)
    (hRooted : p = rel ∨ (w₁.fs.get ⟨.cow, p.dropLast⟩).isSome = true)
    (hNone : w₁.fs.get ⟨.cow, p⟩ = none)
    (hSource : w₁.fs.get ⟨.backing, p⟩ = some source)
    (hCopied : Copied w₁ {q | q <+: p} p source w) : Mirroring w₀ rel w := by
  obtain ⟨hGrown, hMirrored⟩ := h
  refine ⟨hGrown.trans hCopied.grown fun q hq => around_of_prefix hBelow hq,
    fun t node hNode hNew => ?_⟩
  cases hOld : w₁.fs.get ⟨.cow, rel ++ t⟩ with
  | some found =>
    have hSame := hCopied.grown.get_old _ _ hOld
    rw [hNode, some.injEq] at hSame
    subst hSame
    rw [hCopied.grown.inode_eq _ (w₁.fs.mem_inos hOld)]
    exact hMirrored t node hOld hNew
  | none =>
    have hPrefix : rel ++ t <+: p := by
      by_contra hOut
      rw [hCopied.grown.get_out _ hOut, hOld] at hNode
      cases hNode
    have hEq : rel ++ t = p := by
      by_contra hNe
      rcases hRooted with rfl | hParent
      · exact hNe (List.IsPrefix.eq_of_length hPrefix (le_antisymm hPrefix.length_le (by simp)))
      · have hAbove := isSome_of_prefix (prefix_dropLast hPrefix hNe) hParent
        rw [hOld] at hAbove
        cases hAbove
    rw [hEq] at hNode ⊢
    obtain ⟨hFresh, found, hFound, hKind, hAlike⟩ := hCopied.mirrored hSource node hNode hNone
    have hFound₀ : w₀.fs.get ⟨.backing, p⟩ = some found := by
      rw [← hGrown.get_backing]
      exact hFound
    rw [hGrown.inode_eq _ (w₀.fs.mem_inos hFound₀)] at hAlike
    exact ⟨fun hMem => hFresh (hGrown.inos hMem), found, hFound₀, hKind, hAlike⟩

/-- The objects below a path can be copied as they are. -/
def PortableBelow (env : Env) (fs : HostFs) (rel : Path) (D : Set Path) : Prop :=
  ∀ t ∈ D, ∀ source, fs.get ⟨.backing, rel ++ t⟩ = some source →
    Portable env source.kind (fs.inode source.ino)

/-! ## The copy of one object -/

variable (hCalm : ∀ k, env.fault k = none) (hAcls : env.propagateAcls = true)
  (hSeeks : PosixSeeks env) {D : Set Path} (hPortable : PortableBelow env w₀.fs rel D)
  {t : Path} (ht : t ∈ D)

include hCalm hAcls hPortable ht

variable {info : Meta}

/-- A copy that starts where the path has none and its parent has one. -/
def Ready (w₀ : World) (rel t : Path) (Q : Set Path) (w : World) : Prop :=
  Mirroring w₀ rel w ∧ Kept Q w ∧
    (rel ++ t = rel ∨ (w.fs.get ⟨.cow, (rel ++ t).dropLast⟩).isSome = true)

/-- The copies are there, with one more. -/
abbrev Renewed (w₀ : World) (rel t : Path) (Q : Set Path) (w : World) : Prop :=
  Mirroring w₀ rel w ∧ Kept (insert (rel ++ t) Q) w

omit hCalm hAcls hPortable ht in
theorem untimed_ready : Untimed (Ready w₀ rel t Q) :=
  fun w n h => ⟨untimed_mirroring w n h.1, h.2⟩

omit hCalm hAcls hPortable ht in
theorem Ready.copied {source : Node} (h : Ready w₀ rel t Q w₁)
    (hNone : w₁.fs.get ⟨.cow, rel ++ t⟩ = none)
    (hSource : w₁.fs.get ⟨.backing, rel ++ t⟩ = some source)
    (hCopied : Copied w₁ {q | q <+: rel ++ t} (rel ++ t) source w) : Renewed w₀ rel t Q w := by
  refine ⟨h.1.copied (prefix_append _ _) h.2.2 hNone hSource hCopied, ?_⟩
  rintro q (rfl | hq)
  · obtain ⟨node, Y, -, -, hw⟩ := hCopied
    rw [hw.found]
    rfl
  · obtain ⟨node, hNode⟩ := isSome_iff_exists.mp (h.2.1 q hq)
    rw [hCopied.grown.get_old _ _ hNode]
    rfl

omit hCalm hAcls hPortable ht in
theorem parents_of_uncopied {q : Path} (hNone : w₁.fs.get ⟨.cow, q⟩ = none) :
    Triple env (Absent w₁ {r | r <+: q} q) (createDirAll (Loc.parent ⟨.cow, q⟩))
      (fun _ => Absent w₁ {r | r <+: q} q) (fun _ => True) :=
  (absent_parents (fun _ hr => hr) (ne_nil_of_absent hNone)).any

omit hCalm hAcls in
/-- From the copy of an object at the state where it starts to the copies below the path. -/
theorem ready_of_copied {x : Op Unit}
    (h : ∀ w₁ source, w₁.fs.get ⟨.cow, rel ++ t⟩ = none → w₁.fs.get ⟨.backing, rel ++ t⟩ = some
      source → info = w₁.fs.metaOf source → Portable env source.kind (w₁.fs.inode source.ino) →
      Triple env (Absent w₁ {q | q <+: rel ++ t} (rel ++ t)) x (fun _ => Copied w₁ {q | q <+: rel
      ++ t} (rel ++ t) source) (fun _ => True)) :
    Copies env (rel ++ t) (Ready w₀ rel t Q) (fun _ => Renewed w₀ rel t Q) (fun _ => True) info
      x := by
  rintro w₁ ⟨hReady, hNone, -, source, hSource, hInfo⟩
  have hOld := hSource
  rw [hReady.1.1.get_backing] at hOld
  have hObject := hPortable t ht source hOld
  rw [← hReady.1.1.inode_eq _ (w₀.fs.mem_inos hOld)] at hObject
  exact (h w₁ source hNone hSource hInfo hObject).post
    (fun _ w hw => hReady.copied hNone hSource hw) w₁ ⟨.refl w₁ _, hNone⟩

theorem ready_link (hk : info.kind = .symlink) :
    Copies env (rel ++ t) (Ready w₀ rel t Q) (fun _ => Renewed w₀ rel t Q) (fun _ => True) info
      (copyObject copyLink (rel ++ t) info false) := by
  refine ready_of_copied hPortable ht fun w₁ source hNone hSource hInfo hObject => ?_
  have hKind : source.kind = .symlink := by rw [← hk, hInfo]; rfl
  have hNever : false = true → source.kind ≠ .symlink := fun h => nomatch h
  exact triple_seq (parents_of_uncopied hNone) <|
    triple_seq (copied_copyLink hCalm hAcls (prefix_refl _) hSource hKind hObject hInfo)
      <| (copied_seedXattrs hSource hObject hNever).any

/-- The copy of a directory, without its parents. -/
theorem ready_copyDirNode (hk : info.kind = .dir) :
    Copies env (rel ++ t) (Ready w₀ rel t Q) (fun _ => Renewed w₀ rel t Q) (fun _ => True) info (do
      copyDirNode ⟨.backing, rel ++ t⟩ ⟨.cow, rel ++ t⟩ info
      seedXattrs ⟨.backing, rel ++ t⟩ ⟨.cow, rel ++ t⟩ true) := by
  refine ready_of_copied hPortable ht fun w₁ source hNone hSource hInfo hObject => ?_
  have hKind : source.kind = .dir := by rw [← hk, hInfo]; rfl
  exact triple_seq (copied_copyDirNode hCalm hAcls (fun q hq => hq) hSource hKind hObject hInfo)
    <| (copied_seedXattrs hSource hObject fun _ : true = true => by simp [hKind]).weaken
      fun _ _ => trivial

theorem ready_dir (hk : info.kind = .dir) :
    Copies env (rel ++ t) (Ready w₀ rel t Q) (fun _ => Renewed w₀ rel t Q) (fun _ => True) info
      (copyObject copyDirNode (rel ++ t) info true) := by
  refine ready_of_copied hPortable ht fun w₁ source hNone hSource hInfo hObject => ?_
  have hKind : source.kind = .dir := by rw [← hk, hInfo]; rfl
  exact triple_seq (parents_of_uncopied hNone) <|
    triple_seq (copied_copyDirNode hCalm hAcls (fun q hq => hq) hSource hKind hObject hInfo)
      <| (copied_seedXattrs hSource hObject fun _ : true = true => by simp [hKind]).weaken
        fun _ _ => trivial

include hSeeks in
theorem ready_file (hLink : info.kind ≠ .symlink) (hDir : info.kind ≠ .dir) :
    Copies env (rel ++ t) (Ready w₀ rel t Q) (fun _ => Renewed w₀ rel t Q) (fun _ => True) info
      (copyObject copyRegular (rel ++ t) info true) := by
  refine ready_of_copied hPortable ht fun w₁ source hNone hSource hInfo hObject => ?_
  have hSame : info.kind = source.kind := by rw [hInfo]; rfl
  rw [hSame] at hLink hDir
  have hKind : source.kind = .file := by
    have hSpecial := hObject.kind_ne
    revert hLink hDir hSpecial
    cases source.kind <;> simp
  exact triple_seq (parents_of_uncopied hNone) <|
    triple_seq (copied_copyRegular hCalm hAcls hSeeks (prefix_refl _) hSource hKind hObject
      hInfo) <| (copied_seedXattrs hSource hObject fun _ : true = true => hLink).weaken
        fun _ _ => trivial

/-! ## The routines -/

/-- The copy-up of the path is done. -/
def Finished (env : Env) (w₀ : World) (rel t : Path) (Q : Set Path) (w : World) : Prop :=
  Mirroring w₀ rel w ∧ Kept Q w ∧ Settled env (rel ++ t) w

omit hCalm hAcls hPortable ht in
theorem finished_of_kept (h : Renewed w₀ rel t Q w) : Finished env w₀ rel t Q w :=
  ⟨h.1, fun r hr => h.2 r (Set.mem_insert_of_mem _ hr), .inl (h.2 _ (Set.mem_insert _ _))⟩

include hSeeks in
theorem mirrored_copyRules :
    CopyRules env (rel ++ t) (Ready w₀ rel t Q) (fun _ => Finished env w₀ rel t Q)
      fun _ => True where
  untimed := untimed_ready
  done _ hw hDone := ⟨hw.1, hw.2.1, hDone⟩
  failed _ _ := trivial
  link _ hk := (ready_link hCalm hAcls hPortable ht hk).post fun _ _ => finished_of_kept
  dir _ hk := (ready_dir hCalm hAcls hPortable ht hk).post fun _ _ => finished_of_kept
  file _ hLink hDir := (ready_file hCalm hAcls hSeeks hPortable ht hLink hDir).post
    fun _ _ => finished_of_kept

include hSeeks in
include hSeeks in
omit hPortable ht in
include hSeeks in
/-- One level of a tree: the directory, then its entries, each with the directory in place. -/
theorem mirrored_copyUpTreeAux (hAll : PortableBelow env w₀.fs rel Set.univ) {depth : Nat}
    (hChild : ∀ n, Triple env (Renewed w₀ rel t Q) (copyUpChild (rel ++ t) n depth)
      (fun _ => Renewed w₀ rel t Q) (fun _ => True)) :
    Triple env (Ready w₀ rel t Q) (copyUpTreeAux depth (rel ++ t))
      (fun _ => Finished env w₀ rel t Q) (fun _ => True) := by
  have hUntimed : Untimed (Renewed w₀ rel t Q) :=
    fun w n hw => ⟨untimed_mirroring w n hw.1, hw.2⟩
  refine triple_copyUpTreeAux (mirrored_copyRules hCalm hAcls hSeeks hAll (Set.mem_univ t))
    fun info hk => ?_
  have hEntries : Triple env (Renewed w₀ rel t Q) (do
      let names ← readDir ⟨.backing, rel ++ t⟩
      each (fun n => do
        nextEntry
        copyUpChild (rel ++ t) n depth) names)
      (fun _ => Finished env w₀ rel t Q) (fun _ => True) := by
    refine triple_bind ((keeps_query hUntimed _).any) fun names => ?_
    refine (triple_each (φ := fun _ => True) (fun n => ?_) names).post
      (fun _ _ hw => finished_of_kept hw.1)
    exact triple_seq ((keeps_query hUntimed _).any) <|
      (hChild n).post (fun _ _ hw => ⟨hw, trivial⟩)
  have hDir := ready_copyDirNode (Q := Q) hCalm hAcls hAll (Set.mem_univ t) hk
  exact triple_assoc (triple_seq hDir hEntries)

omit hPortable ht in
include hSeeks in
theorem mirrored_copyUpTree (hAll : PortableBelow env w₀.fs rel Set.univ) :
    Triple env (Ready w₀ rel t Q) (copyUpTree (rel ++ t))
      (fun _ => Finished env w₀ rel t Q) (fun _ => True) := by
  refine triple_bind ((keeps_state _).any) fun depth => ?_
  induction depth generalizing t Q with
  | zero =>
    exact mirrored_copyUpTreeAux hCalm hAcls hSeeks hAll fun n => triple_done
  | succ depth ih =>
    refine mirrored_copyUpTreeAux hCalm hAcls hSeeks hAll fun n => ?_
    have hLevel := @ih (insert (rel ++ t) Q) (t ++ [toStringLossy n])
    rw [← append_assoc] at hLevel
    refine triple_conseq hLevel (fun w hw => ⟨hw.1, hw.2, .inr ?_⟩) (fun _ _ hw => ⟨hw.1, hw.2.1⟩)
      (fun _ hw => hw)
    rw [← append_assoc, dropLast_concat]
    exact hw.2 _ (Set.mem_insert _ _)

end Routines

end FabricFs.Overlay
