import FabricFs.Host.Calls

/-!
# Permission checks

`server/permissions.rs`: the mode bits of an object against the user and the group of a
request. The checks look at metadata only; `ensureNotSymlink` and `applyOwnership` are
the two that make a host call.
-/

namespace FabricFs.Server

open Lib Lib.Prog

structure FuseContext where
  uid : Nat
  gid : Nat
  deriving DecidableEq, Repr

/-- `O_ACCMODE`, `O_WRONLY`, `O_RDWR`, `O_EXCL` and `O_TRUNC`. -/
def oAccmode : Nat := 3
def oWronly : Nat := 1
def oRdwr : Nat := 2
def oExcl : Nat := 0o200
def oTrunc : Nat := 0o1000

/-- `S_ISVTX`. -/
def stickyBit : Nat := 0o1000

/-- Some bit of the mask is set. -/
def hasBit (bits mask : Nat) : Bool := bits &&& mask != 0

def requireContext (ctx : Option FuseContext) : Op FuseContext :=
  match ctx with
  | some ctx => pure ctx
  | none => throw .einval

/-- The class of bits that applies to a user other than the superuser. -/
def classBits (info : Meta) (uid gid : Nat) : Nat :=
  if info.uid = uid then (info.perm >>> 6) &&& 0o7
  else if info.gid = gid then (info.perm >>> 3) &&& 0o7
  else info.perm &&& 0o7

def accessAllowed (info : Meta) (uid gid required : Nat) : Bool :=
  if uid = 0 then !(hasBit required 0o1 && !hasBit info.perm 0o111)
  else classBits info uid gid &&& required == required

def ensureAccessBits (info : Meta) (uid gid required : Nat) : Op Unit :=
  ensure (accessAllowed info uid gid required) .eacces

def ensureWriteAllowed (info : Meta) (uid gid : Nat) : Op Unit :=
  ensureAccessBits info uid gid 0o2

def ensureReadAllowed (info : Meta) (uid gid : Nat) : Op Unit :=
  ensureAccessBits info uid gid 0o4

def ensureSearchAllowed (info : Meta) (uid gid : Nat) : Op Unit :=
  ensureAccessBits info uid gid 0o1

def ensureDirCreationAllowed (info : Meta) (uid gid : Nat) : Op Unit :=
  ensureAccessBits info uid gid 0o3

def ensureFileCreationAllowed (info : Meta) (uid gid : Nat) : Op Unit :=
  ensureAccessBits info uid gid 0o3

def openAccessBits (flags : Nat) : Except Errno Nat :=
  let mode := flags &&& oAccmode
  let truncating := if hasBit flags oTrunc then 0o2 else 0
  if mode = 0 then .ok (0o4 ||| truncating)
  else if mode = oWronly then .ok (0o2 ||| truncating)
  else if mode = oRdwr then .ok (0o6 ||| truncating)
  else .error .einval

/-- Only an open for writing truncates. -/
theorem not_truncating {flags bits : Nat} (h : openAccessBits flags = .ok bits)
    (hb : hasBit bits 0o2 = false) : hasBit flags oTrunc = false := by
  cases ht : hasBit flags oTrunc with
  | false => rfl
  | true =>
    exfalso
    have hOr : ∀ a : Nat, hasBit (a ||| 2) 2 = true := by
      intro a
      simp only [hasBit, bne_iff_ne, ne_eq]
      intro h0
      have := congrArg (fun n => n.testBit 1) h0
      simp only [Nat.testBit_and, Nat.testBit_or, Nat.zero_testBit] at this
      rw [show Nat.testBit 2 1 = true from rfl, Bool.or_true] at this
      cases this
    unfold openAccessBits at h
    rw [ht] at h
    simp only [if_true] at h
    split at h
    · cases h
      rw [hOr] at hb
      cases hb
    · split at h
      · cases h
        rw [hOr] at hb
        cases hb
      · split at h
        · cases h
          rw [hOr] at hb
          cases hb
        · cases h

def ensureOpenFlagsAllowed (info : Meta) (uid gid flags : Nat) : Op Nat := do
  let required ← result (openAccessBits flags)
  ensureAccessBits info uid gid required
  pure required

def ensureRegularFile (info : Meta) : Op Unit :=
  match info.kind with
  | .file => pure ()
  | .dir => throw .eisdir
  | _ => throw .einval

def ensureOwnerOrRoot (info : Meta) (uid : Nat) : Op Unit :=
  ensure (uid == 0 || info.uid == uid) .eacces

def ownershipAllowed (info : Meta) (uid gid : Nat) (newUid newGid : Option Nat) : Bool :=
  uid == 0 || (info.uid == uid && newUid.all (· == info.uid) &&
    newGid.all (fun requested => requested == info.gid || requested == gid))

def ensureSetattrOwnershipAllowed (info : Meta) (uid gid : Nat) (newUid newGid : Option Nat) :
    Op Unit :=
  ensure (ownershipAllowed info uid gid newUid newGid) .eacces

/-- The attributes that a request changes. -/
structure Setattr where
  mode : Option Nat
  uid : Option Nat
  gid : Option Nat
  size : Option Nat
  deriving DecidableEq, Repr

/-- The change touches the mode or the ownership. -/
def Setattr.permissions (change : Setattr) : Bool :=
  change.mode.isSome || change.uid.isSome || change.gid.isSome

def ensureSetattrAllowed (info : Meta) (ctx : FuseContext) (change : Setattr) : Op Unit := do
  onlyIf change.mode.isSome (ensureOwnerOrRoot info ctx.uid)
  onlyIf (change.uid.isSome || change.gid.isSome)
    (ensureSetattrOwnershipAllowed info ctx.uid ctx.gid change.uid change.gid)
  onlyIf change.size.isSome (ensureWriteAllowed info ctx.uid ctx.gid)

def stickyAllowed (parent target : Meta) (uid : Nat) : Bool :=
  !(hasBit parent.perm stickyBit && uid != 0 && uid != parent.uid && uid != target.uid)

def ensureStickyAllowed (parent target : Meta) (uid : Nat) : Op Unit :=
  ensure (stickyAllowed parent target uid) .eacces

def ensureRemovalAllowed (parent target : Meta) (uid gid : Nat) : Op Unit := do
  ensureDirCreationAllowed parent uid gid
  ensureStickyAllowed parent target uid

def ensureNotSymlink (loc : Loc) : Op Unit := do
  let info ← symlinkMetadata loc
  ensure (info.kind != .symlink) .eloop

def applyOwnership (loc : Loc) (uid gid : Nat) (followSymlink : Bool) : Op Unit :=
  chown loc uid gid followSymlink

/-- The value of `u32::MAX`, which leaves an id as it is. -/
def u32Max : Nat := 2 ^ 32 - 1

def applyHandleSetattr (file : Node) (accessBits : Nat) (change : Setattr) (ctx : FuseContext) :
    Op Meta := do
  let info ← fileMetadata file
  onlyIf change.mode.isSome (ensureOwnerOrRoot info ctx.uid)
  onlyIf (change.uid.isSome || change.gid.isSome)
    (ensureSetattrOwnershipAllowed info ctx.uid ctx.gid change.uid change.gid)
  ensure (!(change.size.isSome && !hasBit accessBits 0o2)) .ebadf
  ifSome change.size (setLen file)
  ifSome change.mode (fchmod file)
  onlyIf (change.uid.isSome || change.gid.isSome)
    (fchown file (change.uid.getD u32Max) (change.gid.getD u32Max))
  fileMetadata file

end FabricFs.Server
