import FabricFs.Host.Fs
import FabricFs.Lib.Prog
import FabricFs.Server.Exclusion

/-!
# The state of the server and its host

A `World` is what the operations change: the host file system, the server's cache of
extended attributes, its table of open handles and its lock tables. The environment
`Env` holds the options of the mount and everything the host decides: which calls fail,
how much a transfer moves, which inode numbers are handed out.

Calls that report errors are numbered in the order in which they are made. `fault k`
makes call number `k` fail without effect, except that a failing bulk copy may have moved
some bytes. Tests such as `path.exists()`, which turn every error into an answer, are
not numbered and do not fail.
-/

namespace FabricFs

open Lib Server

/-! ## State -/

variable {α : Type} {env : Env} {w w' : World}

inductive HandleKind where
  | file | dir
  deriving DecidableEq, Repr

/-- An open handle. The open file is the inode with its type. -/
structure HandleEntry where
  path : Path
  kind : HandleKind
  accessBits : Nat
  offset : Nat
  permissionUpdatesBlocked : Bool
  file : Option Node
  deriving DecidableEq, Repr

structure World where
  fs : HostFs
  /-- The cache of the extended attribute store. -/
  cache : Dict Nat XattrTable
  nextHandle : Nat
  handles : Dict Nat HandleEntry
  locks : LockTable
  flocks : FlockTable
  /-- The number of error-reporting host calls made so far. -/
  calls : Nat

def World.openInos (w : World) : List Nat :=
  w.handles.entries.filterMap (fun e => e.2.file.map Node.ino)

/-! ## Environment -/

/-- A server that has just been started. -/
def started (fs : HostFs) : World := ⟨fs, ∅, 0, ∅, ∅, ∅, 0⟩

/-- Which of the three roots the mount has. -/
structure Layout where
  backingRoot : Bool
  aliasRoot : Bool
  cowRoot : Bool
  deriving DecidableEq, Repr

structure FsLimits where
  ioChunkBytes : Nat
  maxReadBytes : Nat

def FsLimits.validated (limits : FsLimits) : FsLimits :=
  ⟨max limits.ioChunkBytes 1, max limits.maxReadBytes 1⟩

/-- A failing call and, for a bulk copy, how many bytes it moved before. That an object is
missing is an answer and no failure, so no fault reports it. -/
structure Fault where
  errno : Errno
  progress : Nat
  errno_ne : errno ≠ .enoent

structure Env where
  layout : Layout
  limits : FsLimits
  umask : Nat
  propagateAcls : Bool
  allowBackingPermissionUpdates : Bool
  allowXattrUpdates : Bool
  allowDirectBackingUpdates : Bool
  enableReflinks : Bool
  preserveSparseFiles : Bool
  /-- The identity and the file mode creation mask of the server process. -/
  euid : Nat
  egid : Nat
  processUmask : Nat
  /-- Where the roots are on the host, for the resolution of link texts. -/
  mount : Root → Path
  pick : Nat → Nat
  fault : Nat → Option Fault
  /-- How many bytes a single read or write moves at most. -/
  transfer : Nat → Nat
  /-- Whether the host can share the blocks of two files. -/
  ficlone : Bool
  /-- Whether a file has fewer blocks than its size, and where its holes are. -/
  sparse : Inode → Bool
  seekData : Inode → Nat → Option Nat
  seekHole : Inode → Nat → Option Nat

/-- The programs of the server. -/
abbrev Op (α : Type) : Type := Prog Env World Errno α

/-! ## Calls -/

/-- A test that cannot fail. -/
def probe {α : Type} (f : Env → World → α) : Op α := fun env w => (.ok (f env w), w)

/-- A numbered call that changes nothing. -/
def query {α : Type} (f : Env → World → Except Errno α) : Op α := fun env w =>
  match env.fault w.calls with
  | some fault => (.error fault.errno, { w with calls := w.calls + 1 })
  | none => (f env w, { w with calls := w.calls + 1 })

/-- A numbered call that may change the file system. -/
def update {α : Type} (f : Env → World → Except Errno (α × HostFs)) : Op α := fun env w =>
  match env.fault w.calls with
  | some fault => (.error fault.errno, { w with calls := w.calls + 1 })
  | none =>
    match f env w with
    | .error e => (.error e, { w with calls := w.calls + 1 })
    | .ok (a, fs) => (.ok a, { w with fs := fs, calls := w.calls + 1 })

@[simp] theorem probe_run (f : Env → World → α) (env : Env) (w : World) :
    probe f env w = (.ok (f env w), w) := rfl

@[simp] theorem probe_bind_run {β : Type} (f : Env → World → α) (g : α → Op β) (env : Env)
    (w : World) : (probe f >>= g) env w = g (f env w) env w := rfl

theorem query_ok {f : Env → World → Except Errno α} {a : α} (h : query f env w = (.ok a, w')) :
    f env w = .ok a ∧ w' = { w with calls := w.calls + 1 } := by
  unfold query at h
  split at h
  · cases h
  · rw [Prod.mk.injEq] at h
    exact ⟨h.1, h.2.symm⟩

theorem query_state (f : Env → World → Except Errno α) (env : Env) (w : World) :
    (query f env w).2 = { w with calls := w.calls + 1 } := by
  unfold query
  split <;> rfl

theorem update_ok {f : Env → World → Except Errno (α × HostFs)} {a : α}
    (h : update f env w = (.ok a, w')) :
    ∃ fs, f env w = .ok (a, fs) ∧ w' = { w with fs := fs, calls := w.calls + 1 } := by
  unfold update at h
  split at h
  · cases h
  · split at h
    · cases h
    · rename_i fs hf
      rw [Prod.mk.injEq, Except.ok.injEq] at h
      obtain ⟨rfl, rfl⟩ := h
      exact ⟨fs, hf, rfl⟩

/-- A failing call has changed nothing, a successful one what it says. -/
theorem update_cases {f : Env → World → Except Errno (α × HostFs)} {res : Except Errno α}
    (h : update f env w = (res, w')) :
    (∃ e, res = .error e ∧ w' = { w with calls := w.calls + 1 }) ∨
      ∃ a fs, res = .ok a ∧ f env w = .ok (a, fs) ∧
        w' = { w with fs := fs, calls := w.calls + 1 } := by
  cases res with
  | ok a =>
    obtain ⟨fs, hf, hw⟩ := update_ok h
    exact .inr ⟨a, fs, rfl, hf, hw⟩
  | error e =>
    refine .inl ⟨e, rfl, ?_⟩
    unfold update at h
    split at h
    · exact (Prod.mk.inj h).2.symm
    · split at h
      · exact (Prod.mk.inj h).2.symm
      · cases h

end FabricFs
