import Mathlib.Algebra.Group.Nat.Defs
import Mathlib.Data.List.Sort
import FabricFs.Host.Names

/-!
# Advisory locks

The lock tables of `server/locks.rs`. A table maps a file to the locks held on it; the
key of a file is its device and inode number, one number here. Ranges are inclusive and
their bounds are 64-bit numbers.
-/

namespace FabricFs.Server

open Lib

/-- `F_RDLCK`, `F_WRLCK` and `F_UNLCK`. -/
def fRdlck : Int := 0
def fWrlck : Int := 1
def fUnlck : Int := 2

/-- `LOCK_SH`, `LOCK_EX`, `LOCK_NB` and `LOCK_UN`. -/
def lockSh : Nat := 1
def lockEx : Nat := 2
def lockNb : Nat := 4
def lockUn : Nat := 8

structure BackendLock where
  handle : Nat
  owner : Nat
  first : Nat
  last : Nat
  typ : Int
  pid : Nat
  deriving DecidableEq, Repr

structure BackendFlock where
  handle : Nat
  owner : Nat
  typ : Nat
  deriving DecidableEq, Repr

/-- A lock as reported to a client. -/
structure FileLock where
  first : Nat
  last : Nat
  typ : Int
  pid : Nat
  deriving DecidableEq, Repr

abbrev LockTable : Type := Dict Nat (List BackendLock)

abbrev FlockTable : Type := Dict Nat (List BackendFlock)

/-! ## Single locks -/

def lockRequiredAccess (typ : Int) : Except Errno Nat :=
  if typ = fRdlck then .ok 0o4
  else if typ = fWrlck then .ok 0o2
  else if typ = fUnlck then .ok 0
  else .error .einval

def rangesOverlap (leftFirst leftLast rightFirst rightLast : Nat) : Bool :=
  decide (leftFirst ≤ rightLast) && decide (rightFirst ≤ leftLast)

def BackendLock.conflicts (lock : BackendLock) (requester first last : Nat) (typ : Int) : Bool :=
  lock.owner != requester && rangesOverlap lock.first lock.last first last &&
    (lock.typ == fWrlck || typ == fWrlck)

def BackendFlock.conflicts (lock : BackendFlock) (requester typ : Nat) : Bool :=
  lock.owner != requester && (lock.typ == lockEx || typ == lockEx)

def validateLockRequest (first last : Nat) (typ : Int) : Except Errno Unit :=
  if first > last then .error .einval else (lockRequiredAccess typ).map (fun _ => ())

def validateFlockOperation (operation : Nat) : Except Errno Nat :=
  let typ := operation ^^^ (operation &&& lockNb)
  if typ = lockSh ∨ typ = lockEx ∨ typ = lockUn then .ok typ else .error .einval

/-! ## POSIX locks -/

/-- The order of `merge_path_locks`: owner, type, process, handle, start. -/
def lockLe (a b : BackendLock) : Prop :=
  a.owner < b.owner ∨ a.owner = b.owner ∧ (a.typ < b.typ ∨ a.typ = b.typ ∧
    (a.pid < b.pid ∨ a.pid = b.pid ∧ (a.handle < b.handle ∨ a.handle = b.handle ∧
      a.first ≤ b.first)))

instance : DecidableRel lockLe := fun _ _ => inferInstanceAs (Decidable (_ ∨ _))

/-- The loop of `merge_path_locks`: a lock joins the one before it when it continues it. -/
def mergeInto (last : BackendLock) : List BackendLock → List BackendLock
  | [] => [last]
  | lock :: locks =>
    if last.owner = lock.owner ∧ last.typ = lock.typ ∧ last.pid = lock.pid ∧
        last.handle = lock.handle ∧ (last.last = u64Max ∨ last.last + 1 ≥ lock.first) then
      mergeInto { last with last := max last.last lock.last } locks
    else last :: mergeInto lock locks

def mergePathLocks (locks : List BackendLock) : List BackendLock :=
  match locks.insertionSort lockLe with
  | [] => []
  | lock :: locks => mergeInto lock locks

/-- What is left of a lock once its owner unlocks a range. -/
def withoutRange (owner first last : Nat) (lock : BackendLock) : List BackendLock :=
  if lock.owner ≠ owner ∨ rangesOverlap lock.first lock.last first last = false then [lock]
  else
    (if lock.first < first then [{ lock with last := first - 1 }] else []) ++
      (if lock.last > last then [{ lock with first := last + 1 }] else [])

namespace LockTable

variable (table : LockTable)

/-- Locks of a file; a file without an entry has none. -/
def locksOf (key : Nat) : List BackendLock := (table.lookup key).getD []

/-- Store the locks of a file, dropping the entry when none are left. -/
def setLocks (key : Nat) (locks : List BackendLock) : LockTable :=
  if locks = [] then table.erase key else table.insert key locks

def getlk (key owner first last : Nat) (typ : Int) : Except Errno (Option FileLock) :=
  match validateLockRequest first last typ with
  | .error e => .error e
  | .ok () =>
    if typ = fUnlck then .ok none
    else .ok (((locksOf table key).find? (·.conflicts owner first last typ)).map (fun lock =>
      ⟨lock.first, lock.last, lock.typ, lock.pid⟩))

def unlockOwnedRange (key owner first last : Nat) : LockTable :=
  match table.lookup key with
  | none => table
  | some locks =>
    setLocks table key (mergePathLocks (locks.flatMap (withoutRange owner first last)))

/-- A lock replaces the ranges that its owner had; a conflict with another owner fails. -/
def setlk (key handle owner first last : Nat) (typ : Int) (pid : Nat) :
    Except Errno LockTable :=
  match validateLockRequest first last typ with
  | .error e => .error e
  | .ok () =>
    if typ = fUnlck then .ok (unlockOwnedRange table key owner first last)
    else if (locksOf table key).any (·.conflicts owner first last typ) then .error .eagain
    else
      let table := unlockOwnedRange table key owner first last
      .ok (setLocks table key
        (mergePathLocks (locksOf table key ++ [⟨handle, owner, first, last, typ, pid⟩])))

/-- Map the locks of every file, dropping the entries that become empty. -/
def mapLocks (f : List BackendLock → List BackendLock) : LockTable :=
  table.keys.foldl (fun acc key => setLocks acc key (f (locksOf table key))) table

def releaseHandle (handle : Nat) : LockTable :=
  mapLocks table (fun locks => locks.filter (fun lock => lock.handle != handle))

def releaseOwner (key owner : Nat) : LockTable :=
  match table.lookup key with
  | none => table
  | some locks => setLocks table key (locks.filter (fun lock => lock.owner != owner))

/-- `rename_path`. The keys are `dev:ino` texts and never lie in the subtree of a path, so
the only effect is that the locks of every file are merged again. -/
def renamePath : LockTable := mapLocks table mergePathLocks

end LockTable

/-! ## Whole-file locks -/

namespace FlockTable

variable (table : FlockTable)

def locksOf (key : Nat) : List BackendFlock := (table.lookup key).getD []

def setLocks (key : Nat) (locks : List BackendFlock) : FlockTable :=
  if locks = [] then table.erase key else table.insert key locks

def unlockOwned (key owner : Nat) : FlockTable :=
  match table.lookup key with
  | none => table
  | some locks => setLocks table key (locks.filter (fun lock => lock.owner != owner))

def flock (key handle owner operation : Nat) : Except Errno FlockTable :=
  match validateFlockOperation operation with
  | .error e => .error e
  | .ok typ =>
    if typ = lockUn then .ok (unlockOwned table key owner)
    else if (locksOf table key).any (·.conflicts owner typ) then
      .error (if operation &&& lockNb ≠ 0 then .eagain else .eopnotsupp)
    else
      let table := unlockOwned table key owner
      .ok (setLocks table key (locksOf table key ++ [⟨handle, owner, typ⟩]))

def releaseHandle (handle : Nat) : FlockTable :=
  table.keys.foldl (fun acc key =>
    setLocks acc key ((locksOf table key).filter (fun lock => lock.handle != handle))) table

end FlockTable

end FabricFs.Server
