import FabricFs.Overlay.Requests

/-!
# Small worlds

Concrete hosts for examples: a mount with all three roots on a host where nothing fails,
run by the superuser, and file systems given by a list of their objects.
-/

namespace FabricFs.Overlay

open Lib Server

/-- A tree with nothing but its root directory. -/
def rootTree (ino : Nat) : HostTree where
  get p := if p = [] then some ⟨.dir, ino⟩ else none
  dom := [[]]
  mem_dom p v h := by
    split at h
    · rename_i hp
      exact hp ▸ List.mem_cons_self
    · cases h
  root_branch := ⟨⟨.dir, ino⟩, rfl, rfl⟩
  parent_branch p n v h := by
    rw [if_neg (by simp)] at h
    cases h

/-- Empty roots that belong to the superuser. -/
def emptyFs : HostFs where
  tree
    | .backing => rootTree 1
    | .cow => rootTree 2
    | .alias => rootTree 3
  inode _ := ⟨0o755, 0, 0, [], ∅⟩
  manifest _ := none

/-- An object for a sample file system. -/
structure Item where
  root : Root
  path : Path
  kind : Kind
  perm : Nat
  data : Bytes

/-- Make the objects in turn, with inode numbers from ten on. -/
def fsOf (items : List Item) : HostFs :=
  items.zipIdx.foldl (fun fs item =>
    match fs.make ⟨item.1.root, item.1.path⟩ item.1.kind (10 + item.2)
        ⟨item.1.perm, 0, 0, item.1.data, ∅⟩ with
    | .ok fs => fs
    | .error _ => fs) emptyFs

/-- A backing tree with one file. -/
def oneFile : HostFs := fsOf [⟨.backing, [nameOf "f"], .file, 0o644, [7]⟩]

/-- A writable mount with a copy-on-write root, on a host without faults. -/
def sampleEnv : Env where
  layout := ⟨true, true, true⟩
  limits := ⟨4096, 4096⟩
  umask := 0o022
  propagateAcls := true
  allowBackingPermissionUpdates := false
  allowXattrUpdates := false
  allowDirectBackingUpdates := false
  enableReflinks := true
  preserveSparseFiles := true
  euid := 0
  egid := 0
  processUmask := 0o022
  mount
    | .backing => [[98]]
    | .cow => [[99]]
    | .alias => [[97]]
  pick k := 100 + k
  fault _ := none
  transfer _ := 4096
  ficlone := false
  sparse _ := false
  seekData _ k := some k
  seekHole inode _ := some inode.data.length

/-- A mount without an alias path, but with a copy-on-write root. -/
def noAliasEnv : Env := { sampleEnv with layout := ⟨true, false, true⟩ }

/-- The superuser. -/
def superuser : Option FuseContext := some ⟨0, 0⟩

end FabricFs.Overlay
