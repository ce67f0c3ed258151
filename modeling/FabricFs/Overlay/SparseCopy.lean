import FabricFs.Server.CopyRange

/-!
# Copying a sparse file

`copy_sparse_file` sets the length of the copy and then copies the data regions that
`lseek` reports. It takes every failure of `SEEK_DATA` for the end of the data.

* `copyRegions_terminates`, `copyLoop_terminates`, `writeChunk_terminates`: no loop of the
  copy runs out of rounds, whatever the host transfers at a time.
* `copyRegions_faithful_iff`: from a copy that is right up to an offset and zero behind it,
  the loop makes a complete copy exactly if no failing `SEEK_DATA` hides data.
* `copySparseFile_faithful_iff`: the same for the whole routine.
* `copySparseFile_drops_data`: `SEEK_DATA` fails at the second region, and the copy of that
  region is all zeros.
-/

namespace FabricFs

open Lib Lib.Prog List

/-! ## Termination of the inner loops -/

namespace Server

theorem writeChunk_terminates (dst : Node) (baseOut copied extra : Nat) {rounds written : Nat}
    {bytes : Bytes} (hRounds : bytes.length ≤ rounds) (env : Env) (w : World) :
    writeChunk dst baseOut copied (rounds + extra) written bytes env w =
      writeChunk dst baseOut copied rounds written bytes env w := by
  induction rounds generalizing written bytes w with
  | zero =>
    obtain rfl := length_eq_zero_iff.mp (Nat.le_zero.mp hRounds)
    cases extra <;> rfl
  | succ rounds ih =>
    rw [Nat.add_right_comm, writeChunk, writeChunk]
    by_cases hEmpty : bytes = []
    · rw [if_pos hEmpty, if_pos hEmpty]
    · rw [if_neg hEmpty, if_neg hEmpty]
      refine bind_congr_run fun start w₁ _ => bind_congr_run fun offset w₂ _ =>
        bind_congr_run fun n w₃ _ => ?_
      by_cases hZero : n = 0
      · rw [if_pos hZero, if_pos hZero]
      · rw [if_neg hZero, if_neg hZero]
        have hPos := length_pos_iff.mpr hEmpty
        exact ih (by rw [length_drop]; omega) w₃

theorem copyLoop_terminates (src dst : Node) (baseIn baseOut chunk extra : Nat)
    {len rounds copied : Nat} (hRounds : len ≤ copied + rounds) (env : Env) (w : World) :
    copyLoop src dst baseIn baseOut len chunk (rounds + extra) copied env w =
      copyLoop src dst baseIn baseOut len chunk rounds copied env w := by
  induction rounds generalizing copied w with
  | zero =>
    cases extra with
    | zero => rfl
    | succ extra => rw [Nat.zero_add, copyLoop, copyLoop, if_pos (by omega)]
  | succ rounds ih =>
    rw [Nat.add_right_comm, copyLoop, copyLoop]
    by_cases hEnough : len ≤ copied
    · rw [if_pos hEnough, if_pos hEnough]
    · rw [if_neg hEnough, if_neg hEnough]
      refine bind_congr_run fun offset w₁ _ => bind_congr_run fun bytes w₂ _ => ?_
      by_cases hEmpty : bytes = []
      · rw [if_pos hEmpty, if_pos hEmpty]
      · rw [if_neg hEmpty, if_neg hEmpty]
        have hPos := length_pos_iff.mpr hEmpty
        exact bind_congr_run fun _ w₃ _ => ih (by omega) w₃

/-- A successful copy between two files stores the range of the source. -/
theorem copyFileRangeAt_ok {src dst : Node} {offset len n : Nat} {limits : FsLimits} {env : Env}
    {w w' : World} (hApart : src.ino ≠ dst.ino)
    (h : copyFileRangeAt src dst offset offset len limits env w = (.ok n, w')) :
    w'.fs = w.fs.writeAt dst.ino offset (rangeOf w.fs src offset len) := by
  obtain ⟨u, w₁, hEnsure, hRun⟩ := bind_ok h
  obtain ⟨-, hFirst⟩ := ensure_ok hEnsure
  subst w₁
  split at hRun
  next hZero =>
    cases hRun
    rw [hZero, rangeOf, take_zero, HostFs.writeAt_nil]
  · obtain ⟨u, w₂, hReject, hLoop⟩ := bind_ok hRun
    have hFs : w₂.fs = w.fs := fs_of_reject hReject
    have hFed : ¬ FeedsOnItself src dst offset offset len w.fs := fun hFed => hApart hFed.1
    have hStart : w₂.fs = w.fs.writeAt dst.ino offset ((rangeOf w.fs src offset len).take 0) := by
      rw [take_zero, HostFs.writeAt_nil, hFs]
    have hLen : (rangeOf w.fs src offset len).length ≤ len := by
      rw [rangeOf, length_take]
      exact Nat.min_le_left _ _
    exact (copyLoop_stable (by omega) hLen (range_stable (fun hSame => absurd hSame hApart) hFed)
      hStart (Nat.zero_le _) (by omega) hLoop).2

end Server

namespace Overlay

open Server

/-! ## What `lseek` may answer -/

variable {env : Env} {inode : Inode} {offset found start : Nat}

/-- The answers of `SEEK_DATA` and `SEEK_HOLE` for a file whose holes are given. A hole reads
as zeros, there is a hole behind the end, and either call may fail. -/
structure Placement (env : Env) (inode : Inode) (holes : Nat → Prop) : Prop where
  zero : ∀ i, holes i → i < inode.data.length → inode.data[i]? = some 0
  data : ∀ offset found, env.seekData inode offset = some found →
    offset ≤ found ∧ found < inode.data.length ∧ ¬ holes found ∧
      ∀ i, offset ≤ i → i < found → holes i
  hole : ∀ offset found, env.seekHole inode offset = some found →
    offset ≤ found ∧ (holes found ∨ inode.data.length ≤ found) ∧
      ∀ i, offset ≤ i → i < found → ¬ holes i

/-- The host answers for every file as POSIX says. -/
def PosixSeeks (env : Env) : Prop := ∀ inode, ∃ holes, Placement env inode holes

/-- Where the data region ends that begins at the offset. -/
def regionEnd (env : Env) (inode : Inode) (size dataOffset : Nat) : Nat :=
  min size ((env.seekHole inode dataOffset).getD size)

theorem lt_regionEnd {size : Nat} (hSeeks : PosixSeeks env)
    (hData : env.seekData inode offset = some found) (hFound : found < size) :
    found < regionEnd env inode size found := by
  obtain ⟨holes, hPlacement⟩ := hSeeks inode
  obtain ⟨-, hLength, hNotHole, -⟩ := hPlacement.data offset found hData
  unfold regionEnd
  cases hHole : env.seekHole inode found with
  | none => simpa using hFound
  | some h =>
    obtain ⟨hLe, hEnd, -⟩ := hPlacement.hole found h hHole
    have hNe : found ≠ h := by
      rintro rfl
      rcases hEnd with hHoleAt | hBehind
      · exact hNotHole hHoleAt
      · omega
    rw [Option.getD_some]
    omega

/-- The loop over the regions ends: every region moves it forward. -/
theorem copyRegions_terminates (hSeeks : PosixSeeks env) (src dst : Node) (extra : Nat)
    {size rounds : Nat} (hRounds : size ≤ offset + rounds) (w : World) :
    copyRegions src dst size (rounds + extra) offset env w =
      copyRegions src dst size rounds offset env w := by
  induction rounds generalizing offset w with
  | zero =>
    cases extra with
    | zero => rfl
    | succ extra => rw [Nat.zero_add, copyRegions, copyRegions, if_pos (by omega)]
  | succ rounds ih =>
    rw [Nat.add_right_comm, copyRegions, copyRegions]
    by_cases hEnd : size ≤ offset
    · rw [if_pos hEnd, if_pos hEnd]
    · rw [if_neg hEnd, if_neg hEnd, ask_bind_run, ask_bind_run, probe_bind_run, probe_bind_run]
      cases hData : env.seekData (w.fs.inode src.ino) offset with
      | none => rfl
      | some found =>
        dsimp only
        by_cases hFound : size ≤ found
        · rw [if_pos hFound, if_pos hFound]
        · rw [if_neg hFound, if_neg hFound, probe_bind_run, probe_bind_run]
          have hMore : found < regionEnd env (w.fs.inode src.ino) size found :=
            lt_regionEnd hSeeks hData (by omega)
          obtain ⟨holes, hPlacement⟩ := hSeeks (w.fs.inode src.ino)
          have hBehind := (hPlacement.data offset found hData).1
          refine bind_congr_run fun _ w₁ _ => ih ?_ w₁
          change size ≤ regionEnd env (w.fs.inode src.ino) size found + rounds
          omega

/-! ## What the loop copies -/

/-- The offsets at which a loop that starts at the first offset looks for data. -/
inductive Asked (env : Env) (inode : Inode) (size : Nat) : Nat → Nat → Prop where
  | start (offset : Nat) : Asked env inode size offset offset
  | next {offset found later : Nat} : offset < size → env.seekData inode offset = some found →
      found < size → Asked env inode size (regionEnd env inode size found) later →
      Asked env inode size offset later

/-- Wherever the loop looks for data and the search fails, the rest of the file is zero. -/
def NoDataHidden (env : Env) (inode : Inode) (start : Nat) : Prop :=
  ∀ offset, Asked env inode inode.data.length start offset →
    env.seekData inode offset = none →
      ∀ i, offset ≤ i → i < inode.data.length → inode.data[i]? = some 0

theorem noDataHidden_of_end (hEnd : inode.data.length ≤ start) : NoDataHidden env inode start := by
  intro offset hAsked _ i hOffset hi
  cases hAsked with
  | start => omega
  | next hStart => omega

theorem noDataHidden_of_fails (hFails : env.seekData inode start = none) :
    NoDataHidden env inode start ↔
      ∀ i, start ≤ i → i < inode.data.length → inode.data[i]? = some 0 := by
  constructor
  · intro h
    exact h start (.start start) hFails
  · intro h offset hAsked _
    cases hAsked with
    | start => exact h
    | next _ hFound => rw [hFails] at hFound; cases hFound

theorem noDataHidden_of_found (hStart : start < inode.data.length)
    (hData : env.seekData inode start = some found) (hFound : found < inode.data.length) :
    NoDataHidden env inode start ↔
      NoDataHidden env inode (regionEnd env inode inode.data.length found) := by
  constructor
  · intro h offset hAsked
    exact h offset (.next hStart hData hFound hAsked)
  · intro h offset hAsked hFails
    cases hAsked with
    | start => rw [hData] at hFails; cases hFails
    | next _ hOther _ hLater =>
      rw [hData] at hOther
      cases hOther
      exact h offset hLater hFails

/-- The copy is right before the offset and zero behind it. -/
def CopiedUpTo (data copy : Bytes) (offset : Nat) : Prop :=
  copy = HostFs.resized (data.take offset) data.length

theorem CopiedUpTo.eq_iff {data copy : Bytes} (h : CopiedUpTo data copy offset) :
    copy = data ↔ ∀ i, offset ≤ i → i < data.length → data[i]? = some 0 := by
  rw [h]
  constructor
  · intro hSame i hi hLength
    have hByte := congrArg (fun bytes => bytes[i]?) hSame
    simp only [HostFs.getElem?_resized, length_take] at hByte
    rw [if_pos hLength, if_neg (by omega)] at hByte
    exact hByte.symm
  · intro hZero
    apply ext_getElem?
    intro i
    rw [HostFs.getElem?_resized, length_take, List.getElem?_take]
    have hBehind : data.length ≤ i → data[i]? = none := List.getElem?_eq_none
    grind

/-- A region is copied, and what lies between the offset and the region is zero. -/
theorem CopiedUpTo.region {data copy : Bytes} {limit : Nat} (h : CopiedUpTo data copy offset)
    (hFound : offset ≤ found) (hLimit : found < limit) (hLength : limit ≤ data.length)
    (hZero : ∀ i, offset ≤ i → i < found → data[i]? = some 0) :
    CopiedUpTo data (HostFs.stored copy found ((data.drop found).take (limit - found))) limit := by
  unfold CopiedUpTo at h ⊢
  rw [h]
  apply ext_getElem?
  intro i
  rw [HostFs.getElem?_stored, HostFs.length_resized, HostFs.getElem?_resized,
    HostFs.getElem?_resized, length_take, length_take, length_take,
    length_drop, List.getElem?_take, List.getElem?_take, List.getElem?_take,
    List.getElem?_drop]
  grind

/-- From a copy that is right up to an offset, the loop makes a complete copy exactly if no
failing `SEEK_DATA` hides data. -/
theorem copyRegions_faithful_iff {src dst : Node} (hSeeks : PosixSeeks env)
    (hApart : src.ino ≠ dst.ino) {rounds : Nat} {w w' : World}
    (hRounds : inode.data.length ≤ offset + rounds) (hSource : w.fs.inode src.ino = inode)
    (hCopied : CopiedUpTo inode.data (w.fs.inode dst.ino).data offset)
    (h : copyRegions src dst inode.data.length rounds offset env w = (.ok (), w')) :
    (w'.fs.inode dst.ino).data = inode.data ↔ NoDataHidden env inode offset := by
  have hDone : inode.data.length ≤ offset →
      ((w.fs.inode dst.ino).data = inode.data ↔ NoDataHidden env inode offset) := by
    intro hEnd
    refine iff_of_true (hCopied.eq_iff.mpr ?_) (noDataHidden_of_end hEnd)
    intro i hi hLength
    omega
  induction rounds generalizing offset w with
  | zero =>
    cases h
    exact hDone (by omega)
  | succ rounds ih =>
    rw [copyRegions] at h
    by_cases hEnd : inode.data.length ≤ offset
    · rw [if_pos hEnd] at h
      cases h
      exact hDone hEnd
    · rw [if_neg hEnd, ask_bind_run, probe_bind_run, hSource] at h
      cases hData : env.seekData inode offset with
      | none =>
        rw [hData] at h
        cases h
        exact hCopied.eq_iff.trans (noDataHidden_of_fails hData).symm
      | some found =>
        obtain ⟨holes, hPlacement⟩ := hSeeks inode
        obtain ⟨hFound, hInside, -, hHoles⟩ := hPlacement.data offset found hData
        have hMore := lt_regionEnd hSeeks hData hInside
        have hLimit : regionEnd env inode inode.data.length found ≤ inode.data.length :=
          Nat.min_le_left _ _
        rw [hData] at h
        dsimp only at h
        rw [if_neg (by omega), probe_bind_run, hSource] at h
        obtain ⟨n, w₁, hCopy, hRest⟩ := bind_ok h
        have hStored := copyFileRangeAt_ok hApart hCopy
        have hSource₁ : w₁.fs.inode src.ino = inode := by
          rw [hStored, HostFs.writeAt_inode, if_neg hApart, hSource]
        have hCopied₁ : CopiedUpTo inode.data (w₁.fs.inode dst.ino).data
            (regionEnd env inode inode.data.length found) := by
          rw [hStored, HostFs.writeAt_inode, if_pos rfl, rangeOf, hSource]
          refine hCopied.region hFound hMore hLimit fun i hi hBefore => ?_
          exact hPlacement.zero i (hHoles i hi hBefore) (by omega)
        rw [noDataHidden_of_found (by omega) hData hInside]
        refine ih (by omega) hSource₁ hCopied₁ hRest fun hEnd => ?_
        refine iff_of_true (hCopied₁.eq_iff.mpr ?_) (noDataHidden_of_end hEnd)
        intro i hi hLength
        omega

/-! ## The routine -/

attribute [local simp] HostFs.modifyInode HostFs.setInode HostFs.setLen

/-- A created file is empty, and the other files are as they were. -/
theorem createFile_ok {loc : Loc} {file : Node} {w w' : World}
    (h : createFile loc env w = (.ok file, w')) :
    (w'.fs.inode file.ino).data = [] ∧ ∀ i, i ≠ file.ino → w'.fs.inode i = w.fs.inode i := by
  obtain ⟨fs, hMade, rfl⟩ := update_ok h
  split at hMade
  · obtain ⟨made, hMake, hPair⟩ := map_eq_ok.mp hMade
    cases hPair
    have hInodes : ∀ i, fs.inode i =
        if i = w.fs.freshIno w.openInos (env.pick w.calls)
        then ⟨maskOff 0o666 env.processUmask, env.euid, env.egid, [], ∅⟩ else w.fs.inode i := by
      intro i
      unfold HostFs.make at hMake
      repeat' split at hMake
      all_goals cases hMake
      rfl
    refine ⟨by rw [hInodes, if_pos rfl], fun i hi => ?_⟩
    rw [hInodes, if_neg hi]
  · split at hMade
    · cases hMade
    · split at hMade
      · cases hMade
      · cases hMade
        refine ⟨?_, fun i hi => ?_⟩
        · simp [HostFs.resized]
        · simp [hi]

/-- The three loops of the copy end, and a copy that succeeds has the contents of the source
exactly if the destination is no other name of a source with contents and no failing
`SEEK_DATA` hides data. -/
theorem copySparseFile_faithful_iff {env : Env} (hSeeks : PosixSeeks env) (src dst : Loc)
    (w : World) :
    (∀ srcFile dstFile size extra v,
      copyRegions srcFile dstFile size (size + 1 + extra) 0 env v =
        copyRegions srcFile dstFile size (size + 1) 0 env v) ∧
    (∀ srcFile dstFile offset len chunk extra v,
      copyLoop srcFile dstFile offset offset len chunk (len + extra) 0 env v =
        copyLoop srcFile dstFile offset offset len chunk len 0 env v) ∧
    (∀ dstFile offset copied (bytes : Bytes) extra v,
      writeChunk dstFile offset copied (bytes.length + extra) 0 bytes env v =
        writeChunk dstFile offset copied bytes.length 0 bytes env v) ∧
    ∀ w', copySparseFile src dst env w = (.ok (), w') →
      ∃ srcFile dstFile w₁ w₂, openFile src false env w = (.ok srcFile, w₁) ∧
        createFile dst env w₁ = (.ok dstFile, w₂) ∧
        ((w'.fs.inode dstFile.ino).data = (w.fs.inode srcFile.ino).data ↔
          (srcFile.ino = dstFile.ino → (w.fs.inode srcFile.ino).data = []) ∧
            NoDataHidden env (w.fs.inode srcFile.ino) 0) := by
  refine ⟨fun srcFile dstFile size extra v =>
      copyRegions_terminates hSeeks srcFile dstFile extra (by omega) v,
    fun srcFile dstFile offset len chunk extra v =>
      copyLoop_terminates srcFile dstFile offset offset chunk extra (by omega) env v,
    fun dstFile offset copied bytes extra v =>
      writeChunk_terminates dstFile offset copied extra le_rfl env v, ?_⟩
  intro w' h
  obtain ⟨srcFile, w₁, hOpen, hRun⟩ := bind_ok h
  obtain ⟨dstFile, w₂, hCreate, hRun₁⟩ := bind_ok hRun
  obtain ⟨srcMeta, w₃, hMeta, hRun₂⟩ := bind_ok hRun₁
  obtain ⟨u, w₄, hResize, hLoop⟩ := bind_ok hRun₂
  refine ⟨srcFile, dstFile, w₁, w₂, hOpen, hCreate, ?_⟩
  obtain ⟨hEmpty, hOthers⟩ := createFile_ok hCreate
  obtain ⟨-, rfl⟩ := query_ok hOpen
  obtain ⟨hSize, rfl⟩ := query_ok hMeta
  obtain ⟨fs, hLength, rfl⟩ := update_ok hResize
  cases hSize
  cases hLength
  set size := (w₂.fs.metaOf srcFile).size with hSizeDef
  have hSizeIs : size = (w₂.fs.inode srcFile.ino).data.length := rfl
  by_cases hSame : srcFile.ino = dstFile.ino
  · -- the source was emptied when the destination was created
    have hZero : size = 0 := by rw [hSizeIs, hSame, hEmpty, length_nil]
    rw [hZero, copyRegions, if_pos (Nat.zero_le _)] at hLoop
    cases hLoop
    have hCopy : ((w₂.fs.setLen dstFile.ino 0).inode dstFile.ino).data = [] := by
      simp [HostFs.resized]
    simp only [hCopy]
    constructor
    · intro hData
      exact ⟨fun _ => hData.symm, noDataHidden_of_end (by rw [← hData]; exact le_rfl)⟩
    · intro hData
      exact (hData.1 hSame).symm
  · have hSource : w₂.fs.inode srcFile.ino = w.fs.inode srcFile.ino := hOthers _ hSame
    rw [hSource] at hSizeIs
    rw [hSizeIs] at hLoop
    set length := (w.fs.inode srcFile.ino).data.length with hLengthDef
    have hStart : CopiedUpTo (w.fs.inode srcFile.ino).data
        ((w₂.fs.setLen dstFile.ino length).inode dstFile.ino).data 0 := by
      simp [CopiedUpTo, hEmpty, hLengthDef]
    have hSource₁ : (w₂.fs.setLen dstFile.ino length).inode srcFile.ino =
        w.fs.inode srcFile.ino := by
      simp [hSame, hSource]
    rw [copyRegions_faithful_iff hSeeks hSame (by omega) hSource₁ hStart hLoop]
    simp [hSame]

/-! ## A search that fails -/

/-- A host where the holes are the zero bytes and `SEEK_DATA` fails at the given offsets. -/
def holeyEnv (fails : Nat → Bool) : Env :=
  { sampleEnv with
    sparse := fun _ => true
    seekData := fun inode offset =>
      if fails offset then none
      else (List.range inode.data.length).find? fun i =>
        decide (offset ≤ i) && decide (inode.data[i]? ≠ some 0)
    seekHole := fun inode offset =>
      (List.range inode.data.length).find? fun i =>
        decide (offset ≤ i) && decide (inode.data[i]? = some 0) }

theorem posixSeeks_holeyEnv (fails : Nat → Bool) : PosixSeeks (holeyEnv fails) := by
  intro inode
  refine ⟨fun i => inode.data[i]? = some 0, fun i hHole _ => hHole, ?_, ?_⟩
  · intro offset found hData
    simp only [holeyEnv] at hData
    split at hData
    · cases hData
    · rw [List.find?_range_eq_some] at hData
      obtain ⟨hFound, hMem, hBefore⟩ := hData
      simp only [Bool.and_eq_true, decide_eq_true_eq, mem_range] at hFound hMem
      refine ⟨hFound.1, hMem, hFound.2, fun i hi hLess => ?_⟩
      simpa [hi] using hBefore i hLess
  · intro offset found hHole
    simp only [holeyEnv] at hHole
    rw [List.find?_range_eq_some] at hHole
    obtain ⟨hFound, -, hBefore⟩ := hHole
    simp only [Bool.and_eq_true, decide_eq_true_eq] at hFound
    refine ⟨hFound.1, .inl hFound.2, fun i hi hLess => ?_⟩
    simpa [hi] using hBefore i hLess

/-- A file with a hole between two regions. -/
def twoRegions : World :=
  started (fsOf [⟨.backing, [nameOf "f"], .file, 0o644, [1, 0, 2]⟩])

def sparseSource : Loc := ⟨.backing, [nameOf "f"]⟩

def sparseCopy : Loc := ⟨.cow, [nameOf "f"]⟩

theorem noDataHidden_holeyEnv (inode : Inode) (start : Nat) :
    NoDataHidden (holeyEnv fun _ => false) inode start := by
  intro offset _ hFails i hi hLength
  simp only [holeyEnv, Bool.false_eq_true, if_false, List.find?_range_eq_none] at hFails
  have hNone := hFails i hLength
  simpa [hi] using hNone

/-- Where no search fails, both regions are copied. -/
theorem copySparseFile_two_regions :
    ∃ srcFile dstFile w₁ w₂,
      openFile sparseSource false (holeyEnv fun _ => false) twoRegions = (.ok srcFile, w₁) ∧
      createFile sparseCopy (holeyEnv fun _ => false) w₁ = (.ok dstFile, w₂) ∧
      ((copySparseFile sparseSource sparseCopy (holeyEnv fun _ => false) twoRegions).2.fs.inode
        dstFile.ino).data = (twoRegions.fs.inode srcFile.ino).data := by
  set env := holeyEnv fun _ => false with hEnv
  have hOk : (copySparseFile sparseSource sparseCopy env twoRegions).1 = .ok () := by
    decide +kernel
  obtain ⟨srcFile, dstFile, w₁, w₂, hOpen, hCreate, hIff⟩ :=
    (copySparseFile_faithful_iff (posixSeeks_holeyEnv fun _ => false) sparseSource sparseCopy
      twoRegions).2.2.2 _ (Prod.ext hOk rfl)
  have hSrc : (openFile sparseSource false env twoRegions).1 = .ok ⟨.file, 10⟩ := by
    decide +kernel
  have hDst : (createFile sparseCopy env (openFile sparseSource false env twoRegions).2).1 =
      .ok ⟨.file, 101⟩ := by
    decide +kernel
  rw [← hEnv] at hOpen hCreate
  rw [hOpen] at hSrc hDst
  rw [hCreate] at hDst
  cases hSrc
  cases hDst
  refine ⟨_, _, w₁, w₂, hOpen, hCreate, hIff.mpr ⟨fun hSame => ?_, noDataHidden_holeyEnv _ _⟩⟩
  cases hSame

/-- `SEEK_DATA` fails at the hole, and the region behind it is not copied. -/
theorem copySparseFile_drops_data :
    let fails := fun offset => offset == 1
    let run := copySparseFile sparseSource sparseCopy (holeyEnv fails) twoRegions
    PosixSeeks (holeyEnv fails) ∧ run.1 = .ok () ∧
      (twoRegions.fs.get sparseSource).map (fun node => (twoRegions.fs.inode node.ino).data) =
        some [1, 0, 2] ∧
      (run.2.fs.get sparseCopy).map (fun node => (run.2.fs.inode node.ino).data) =
        some [1, 0, 0] := by
  intro fails run
  refine ⟨posixSeeks_holeyEnv _, ?_⟩
  decide +kernel

end Overlay

end FabricFs
