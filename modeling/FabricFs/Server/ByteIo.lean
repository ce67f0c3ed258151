import FabricFs.Host.Calls

/-!
# Reading and writing open files

`server/byte_io.rs` and `server/advanced_io.rs`. Offsets and sizes come from requests as
signed 64-bit numbers. A single read or write may move fewer bytes than asked for; an
interrupted call is the call that completes after its interruptions.

The loops carry a bound on their rounds. Every round but the last moves at least one
byte, so the number of bytes asked for is enough.
-/

namespace FabricFs.Server

open Lib Lib.Prog

/-- `lseek`, which does nothing to the contents. -/
def seekTo (_file : Node) (_offset : Nat) : Op Unit := query (fun _ _ => .ok ())

/-! ## Reads and writes -/

/-- The loop of `read_file_at`. -/
def readLoop (file : Node) (chunkSize : Nat) : Nat → Nat → Nat → Bytes → Op Bytes
  | 0, _, _, total => pure total
  | rounds + 1, offset, wanted, total =>
    if wanted = 0 then pure total
    else do
      let bytes ← readAt file offset (min wanted chunkSize)
      if bytes = [] then pure total
      else do
        let offset := offset + bytes.length
        readLoop file chunkSize rounds offset (wanted - bytes.length) (total ++ bytes)

def readFileAt (file : Node) (offset size : Int) (limits : FsLimits) : Op Bytes := do
  ensure (decide (0 ≤ offset)) .einval
  seekTo file offset.toNat
  let toRead := (min size limits.maxReadBytes).toNat
  readLoop file limits.ioChunkBytes toRead offset.toNat toRead []

def writeFileAt (file : Node) (offset : Int) (data : Bytes) : Op Nat := do
  ensure (decide (0 ≤ offset)) .einval
  seekTo file offset.toNat
  let written ← writeAt file offset.toNat data
  fsync file
  pure written

/-! ## Copies between open files -/

/-- `u64::checked_add`. -/
def checkedAdd (a b : Nat) : Except Errno Nat :=
  if a + b ≤ u64Max then .ok (a + b) else .error .einval

def rejectOverlappingSameFileCopy (src dst : Node) (offsetIn offsetOut len : Nat) : Op Unit := do
  let srcMeta ← fileMetadata src
  let dstMeta ← fileMetadata dst
  if srcMeta.ino ≠ dstMeta.ino then pure ()
  else do
    let inputEnd ← result (checkedAdd offsetIn len)
    let outputEnd ← result (checkedAdd offsetOut len)
    ensure (!(decide (offsetIn < outputEnd) && decide (offsetOut < inputEnd))) .einval

/-- The inner loop of `copy_file_range_at`: store all bytes of one chunk. -/
def writeChunk (dst : Node) (baseOut copied : Nat) : Nat → Nat → Bytes → Op Unit
  | 0, _, _ => pure ()
  | rounds + 1, written, bytes =>
    if bytes = [] then pure ()
    else do
      let start ← result (checkedAdd baseOut copied)
      let offset ← result (checkedAdd start written)
      let n ← writeAt dst offset bytes
      if n = 0 then throw .eio
      else writeChunk dst baseOut copied rounds (written + n) (bytes.drop n)

/-- The outer loop of `copy_file_range_at`. -/
def copyLoop (src dst : Node) (baseIn baseOut len chunkSize : Nat) : Nat → Nat → Op Nat
  | 0, copied => pure copied
  | rounds + 1, copied =>
    if len ≤ copied then pure copied
    else do
      let readOffset ← result (checkedAdd baseIn copied)
      let bytes ← readAt src readOffset (min (len - copied) chunkSize)
      if bytes = [] then pure copied
      else do
        writeChunk dst baseOut copied bytes.length 0 bytes
        copyLoop src dst baseIn baseOut len chunkSize rounds (copied + bytes.length)

def copyFileRangeAt (src dst : Node) (offsetIn offsetOut : Int) (len : Nat) (limits : FsLimits) :
    Op Nat := do
  ensure (decide (0 ≤ offsetIn) && decide (0 ≤ offsetOut)) .einval
  if len = 0 then pure 0
  else do
    rejectOverlappingSameFileCopy src dst offsetIn.toNat offsetOut.toNat len
    let chunkSize := max (min limits.ioChunkBytes len) 1
    copyLoop src dst offsetIn.toNat offsetOut.toNat len chunkSize len 0

/-! ## Seeks and allocation -/

def ensureFallocateModeSupported (mode : Nat) : Op Unit := ensure (mode == 0) .eopnotsupp

/-- The file reaches at least to the end of the range. -/
def applyModeZeroFallocate (file : Node) (offset length : Int) : Op Unit := do
  ensure (decide (0 ≤ offset) && decide (0 < length)) .einval
  update (fun _ w =>
    let size := (w.fs.inode file.ino).data.length
    .ok ((), w.fs.setLen file.ino (max size (offset + length).toNat)))

/-- `SEEK_SET`, `SEEK_CUR` and `SEEK_END`. -/
def seekOffset (current fileLen : Nat) (offset : Int) (whence : Nat) : Except Errno Nat :=
  let base : Option Nat :=
    match whence with
    | 0 => some 0
    | 1 => some current
    | 2 => some fileLen
    | _ => none
  match base with
  | none => .error .einval
  | some base =>
    let next := (base : Int) + offset
    if next < 0 ∨ next > 2 ^ 63 - 1 then .error .einval else .ok next.toNat

end FabricFs.Server
