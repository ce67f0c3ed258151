import FabricFs.Host.Names
import FabricFs.Lib.Tree

/-!
# The host file system

Three directory trees on the host matter to the overlay: the backing tree, the
copy-on-write tree and the alias tree that holds the tombstones. The trees are disjoint,
entries of one tree may share an inode (hard links), and the attributes and the contents
belong to the inode. The manifests of the overlay's extended attributes, which live in a
reserved directory of the copy-on-write root, are a store of their own here.

A system call is a function from the file system to an error or a new file system. The
path of a call is looked up component by component; a proper prefix that is no directory
makes it fail with `ENOTDIR`, symbolic links included.
-/

namespace FabricFs

open Lib List

/-- The mode without the bits of the mask. -/
def maskOff (mode mask : Nat) : Nat := mode ^^^ (mode &&& mask)

/-! ## Nodes and inodes -/

inductive Kind where
  | dir | file | symlink | special
  deriving DecidableEq, Repr

/-- A directory entry: the inode it names and the type of that inode. -/
structure Node where
  kind : Kind
  ino : Nat
  deriving DecidableEq, Repr

def Node.isDir (node : Node) : Bool := node.kind == .dir

/-- Names and values of extended attributes. -/
abbrev XattrTable : Type := Dict Bytes Bytes

/-- What an inode holds. The data are the contents of a file or the text of a link. -/
structure Inode where
  perm : Nat
  uid : Nat
  gid : Nat
  data : Bytes
  xattrs : XattrTable

/-- A manifest file of the extended attribute store. -/
inductive Manifest where
  | entries (version : Nat) (table : XattrTable)
  | garbage

/-- The three trees. -/
inductive Root where
  | backing | cow | alias
  deriving DecidableEq, Repr

/-- A host path. -/
structure Loc where
  root : Root
  path : Path
  deriving DecidableEq, Repr

def Loc.parent (loc : Loc) : Loc := ⟨loc.root, loc.path.dropLast⟩

/-- The result of `stat`, without the device and the times. -/
structure Meta where
  kind : Kind
  ino : Nat
  perm : Nat
  nlink : Nat
  uid : Nat
  gid : Nat
  size : Nat
  deriving DecidableEq, Repr

abbrev HostTree : Type := Tree Name Node Node.isDir

structure HostFs where
  tree : Root → HostTree
  inode : Nat → Inode
  manifest : Nat → Option Manifest

namespace HostFs

variable (fs : HostFs)

def get (loc : Loc) : Option Node := (fs.tree loc.root).get loc.path

/-! ## Inode numbers in use -/

/-- The inode numbers that the trees refer to, with repetitions. -/
def inos : List Nat :=
  [Root.backing, .cow, .alias].flatMap (fun root =>
    (fs.tree root).dom.filterMap (fun p => ((fs.tree root).get p).map Node.ino))

theorem mem_inos_iff {ino : Nat} :
    ino ∈ fs.inos ↔ ∃ loc node, fs.get loc = some node ∧ node.ino = ino := by
  simp only [inos, mem_flatMap, mem_filterMap, Option.map_eq_some_iff]
  constructor
  · rintro ⟨root, -, p, -, node, hNode, hIno⟩
    exact ⟨⟨root, p⟩, node, hNode, hIno⟩
  · rintro ⟨⟨root, p⟩, node, hNode, hIno⟩
    exact ⟨root, by cases root <;> simp, p, (fs.tree root).mem_dom p node hNode, node, hNode, hIno⟩

theorem mem_inos {loc : Loc} {node : Node} (h : fs.get loc = some node) : node.ino ∈ fs.inos :=
  fs.mem_inos_iff.mpr ⟨loc, node, h, rfl⟩

/-- The inode number of a new object. The host picks any number that is not in use by a
directory entry or an open file; where its pick is in use, a number above all of these. -/
def freshIno (openInos : List Nat) (pick : Nat) : Nat :=
  if pick ∈ fs.inos ++ openInos then (fs.inos ++ openInos).foldr max 0 + 1 else pick

theorem freshIno_notMem (openInos : List Nat) (pick : Nat) :
    fs.freshIno openInos pick ∉ fs.inos ++ openInos := by
  unfold freshIno
  split
  · intro hMem
    have hLe : ∀ (l : List Nat) (i : Nat), i ∈ l → i ≤ l.foldr max 0 := by
      intro l i hi
      induction l with
      | nil => cases hi
      | cons k l ih =>
        rw [foldr_cons]
        rcases mem_cons.mp hi with rfl | hTail
        · exact Nat.le_max_left _ _
        · exact le_trans (ih hTail) (Nat.le_max_right _ _)
    have := hLe _ _ hMem
    omega
  · assumption

/-! ## Updates -/

def setTree (root : Root) (t : HostTree) : HostFs :=
  { fs with tree := fun root' => if root' = root then t else fs.tree root' }

/-- Enter a node under a free name of a directory. -/
def enter (root : Root) (d : Path) (n : Name) (node : Node) : HostFs :=
  fs.setTree root ((fs.tree root).add d n node)

/-- Drop a childless entry. -/
def drop (loc : Loc) : HostFs := fs.setTree loc.root ((fs.tree loc.root).erase loc.path)

/-- Move an entry and all that is below it. -/
def relocate (root : Root) (src d : Path) (n : Name) : HostFs :=
  fs.setTree root ((fs.tree root).move src d n)

def setInode (ino : Nat) (inode : Inode) : HostFs :=
  { fs with inode := fun i => if i = ino then inode else fs.inode i }

def setManifest (ino : Nat) (manifest : Option Manifest) : HostFs :=
  { fs with manifest := fun i => if i = ino then manifest else fs.manifest i }

/-! ## Lookups -/

/-- The node at a path, or the error of the lookup. -/
def lookup (loc : Loc) : Except Errno Node :=
  match fs.get loc with
  | some node => .ok node
  | none => .error (if (fs.tree loc.root).blocked loc.path then .enotdir else .enoent)

/-- No object on the way to the path is a symbolic link. The host would follow one there, which
`lookup` does not model. -/
def Straight (path : Path) : Prop :=
  ∀ root q node, q <+: path → q ≠ path → fs.get ⟨root, q⟩ = some node → node.kind ≠ .symlink

theorem straight_singleton (name : Name) : fs.Straight [name] := by
  intro root q node hPrefix hNe hNode hLink
  obtain rfl : q = [] := by
    rcases prefix_cons_iff.mp hPrefix with hNil | ⟨rest, rfl, hRest⟩
    · exact hNil
    · exact absurd (by rw [prefix_nil.mp hRest]) hNe
  obtain ⟨dir, hDir, hBranch⟩ := (fs.tree root).root_branch
  obtain rfl : node = dir := Option.some.inj (hNode.symm.trans hDir)
  simp [Node.isDir, hLink] at hBranch

theorem lookup_eq_ok {loc : Loc} {node : Node} :
    fs.lookup loc = .ok node ↔ fs.get loc = some node := by
  unfold lookup
  split
  · rename_i found hf
    rw [hf, Except.ok.injEq, Option.some.injEq]
  · rename_i hf
    rw [hf]
    simp

/-- The number of names of an inode. -/
def linkCount (ino : Nat) : Nat :=
  ([Root.backing, .cow, .alias].map (fun root =>
    (fs.tree root).dom.dedup.countP (fun p =>
      ((fs.tree root).get p).any (fun node => node.ino == ino)))).sum

def metaOf (node : Node) : Meta :=
  let inode := fs.inode node.ino
  { kind := node.kind, ino := node.ino, perm := inode.perm,
    nlink := if node.isDir then 1 else fs.linkCount node.ino,
    uid := inode.uid, gid := inode.gid, size := inode.data.length }

/-! ## System calls on names -/

/-- The directory and the name that a call which makes or removes an entry works on. -/
def parentDir (loc : Loc) : Except Errno (Path × Name) :=
  match splitLast loc.path with
  | none => .error .ebusy
  | some (d, n) =>
    match fs.lookup ⟨loc.root, d⟩ with
    | .error e => .error e
    | .ok node => if node.isDir then .ok (d, n) else .error .enotdir

/-- Make an entry with a new inode: `mkdir`, `mknod`, `symlink` and exclusive creation. -/
def make (loc : Loc) (kind : Kind) (ino : Nat) (inode : Inode) : Except Errno HostFs :=
  if loc.path = [] then .error .eexist
  else
    match fs.parentDir loc with
    | .error e => .error e
    | .ok (d, n) =>
      match fs.get loc with
      | some _ => .error .eexist
      | none => .ok ((fs.enter loc.root d n ⟨kind, ino⟩).setInode ino inode)

/-- Below an object that is no directory there is no place for an entry. -/
theorem make_of_blocked {root : Root} {p : Path} (h : (fs.tree root).blocked p = true)
    (kind : Kind) (ino : Nat) (inode : Inode) :
    fs.make ⟨root, p⟩ kind ino inode = .error .enotdir := by
  obtain ⟨q, rest, node, hPath, hRest, hNode, hDir⟩ := Tree.blocked_iff.mp h
  have hParent : fs.parentDir ⟨root, p⟩ = .error .enotdir := by
    unfold parentDir
    cases hs : splitLast p with
    | none =>
      rw [splitLast_eq_none.mp hs] at hPath
      exact absurd (append_eq_nil_iff.mp hPath.symm).2 hRest
    | some dn =>
      obtain ⟨d, n⟩ := dn
      have hd : d = q ++ rest.dropLast := by
        have := congrArg List.dropLast (splitLast_eq_some.mp hs)
        rw [dropLast_concat, hPath, dropLast_append_of_ne_nil hRest] at this
        exact this.symm
      by_cases hNil : rest.dropLast = []
      · rw [hNil, append_nil] at hd
        simp [lookup, get, hd, hNode, hDir]
      · have hBlocked : (fs.tree root).blocked d = true :=
          Tree.blocked_iff.mpr ⟨q, rest.dropLast, node, hd, hNil, hNode, hDir⟩
        simp [lookup, get, Tree.get_eq_none_of_blocked hBlocked, hBlocked]
  have hNe : p ≠ [] := by
    rintro rfl
    cases h
  simp only [make, if_neg hNe, hParent]

theorem make_of_get {loc : Loc} {node : Node} (h : fs.get loc = some node) (kind : Kind)
    (ino : Nat) (inode : Inode) : fs.make loc kind ino inode = .error .eexist := by
  obtain ⟨root, p⟩ := loc
  unfold make parentDir
  cases hs : splitLast p with
  | none => rw [if_pos (splitLast_eq_none.mp hs)]
  | some dn =>
    obtain ⟨d, n⟩ := dn
    obtain rfl := splitLast_eq_some.mp hs
    obtain ⟨parent, hParent, hDir⟩ := (fs.tree root).parent_branch d n node h
    rw [if_neg (by simp)]
    simp only [lookup, show fs.get ⟨root, d⟩ = some parent from hParent, hDir, if_true, h]

/-- `link`. -/
def hardLink (src dst : Loc) : Except Errno HostFs :=
  match fs.lookup src with
  | .error e => .error e
  | .ok node =>
    match fs.parentDir dst with
    | .error e => .error e
    | .ok (d, n) =>
      match fs.get dst with
      | some _ => .error .eexist
      | none =>
        if node.isDir then .error .eperm
        else if src.root ≠ dst.root then .error .exdev
        else .ok (fs.enter dst.root d n node)

/-- `unlink`. -/
def removeFile (loc : Loc) : Except Errno HostFs :=
  match fs.lookup loc with
  | .error e => .error e
  | .ok node => if node.isDir then .error .eisdir else .ok (fs.drop loc)

/-- `rmdir`. -/
def removeDir (loc : Loc) : Except Errno HostFs :=
  match fs.lookup loc with
  | .error e => .error e
  | .ok node =>
    if !node.isDir then .error .enotdir
    else if (fs.tree loc.root).childNames loc.path ≠ [] then .error .enotempty
    else if loc.path = [] then .error .ebusy
    else .ok (fs.drop loc)

/-- `rename` between entries of one tree. -/
def rename (src dst : Loc) : Except Errno HostFs :=
  match fs.lookup src with
  | .error e => .error e
  | .ok node =>
    match fs.parentDir dst with
    | .error e => .error e
    | .ok (d, n) =>
      if src.root ≠ dst.root then .error .exdev
      else if src.path = [] then .error .ebusy
      else if src.path <+: d then .error .einval
      else
        match fs.get dst with
        | none => .ok (fs.relocate dst.root src.path d n)
        | some old =>
          -- the existing entry is replaced, unless both are names of one inode
          if old.ino = node.ino then .ok fs
          else if node.isDir && !old.isDir then .error .enotdir
          else if !node.isDir && old.isDir then .error .eisdir
          else if (fs.tree dst.root).childNames dst.path ≠ [] then .error .enotempty
          else .ok ((fs.drop dst).relocate dst.root src.path d n)

/-- `readdir`. -/
def entries (loc : Loc) : Except Errno (List Name) :=
  match fs.lookup loc with
  | .error e => .error e
  | .ok node =>
    if node.isDir then .ok ((fs.tree loc.root).childNames loc.path) else .error .enotdir

/-! ## System calls on inodes -/

def modifyInode (ino : Nat) (f : Inode → Inode) : HostFs := fs.setInode ino (f (fs.inode ino))

/-- `chmod`: the file type bits of the mode are ignored. -/
def chmod (ino mode : Nat) : HostFs :=
  fs.modifyInode ino (fun inode => { inode with perm := mode &&& 0o7777 })

/-- The mode that is left when the owner of an object changes: the set-user-ID bit goes, and
the set-group-ID bit of what its group may execute. Directories keep both. -/
def ownedMode (node : Node) (perm : Nat) : Nat :=
  if node.isDir then perm
  else maskOff perm (if perm &&& 0o10 = 0 then 0o4000 else 0o6000)

/-- `chown`, where `u32::MAX` leaves an id as it is. -/
def chown (node : Node) (uid gid : Nat) : HostFs :=
  fs.modifyInode node.ino (fun inode =>
    { inode with
      perm := ownedMode node inode.perm
      uid := if uid = 2 ^ 32 - 1 then inode.uid else uid
      gid := if gid = 2 ^ 32 - 1 then inode.gid else gid })

/-- The contents cut or padded with zeros to the length. -/
def resized (data : Bytes) (size : Nat) : Bytes :=
  data.take size ++ List.replicate (size - data.length) 0

/-- The contents after the bytes are stored at the offset. -/
def stored (data : Bytes) (offset : Nat) (bytes : Bytes) : Bytes :=
  if bytes = [] then data
  else resized (data.take offset) offset ++ bytes ++ data.drop (offset + bytes.length)

def setLen (ino size : Nat) : HostFs :=
  fs.modifyInode ino (fun inode => { inode with data := resized inode.data size })

def writeAt (ino offset : Nat) (bytes : Bytes) : HostFs :=
  fs.modifyInode ino (fun inode => { inode with data := stored inode.data offset bytes })

def setXattr (ino : Nat) (name value : Bytes) : HostFs :=
  fs.modifyInode ino (fun inode => { inode with xattrs := inode.xattrs.insert name value })

def removeXattr (ino : Nat) (name : Bytes) : HostFs :=
  fs.modifyInode ino (fun inode => { inode with xattrs := inode.xattrs.erase name })

end HostFs

end FabricFs
