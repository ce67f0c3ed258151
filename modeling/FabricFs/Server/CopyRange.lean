import FabricFs.Overlay.Samples
import FabricFs.Overlay.Rules

/-!
# Copying a range between open files

`copy_file_range_at` copies in chunks and reads the source anew for every chunk, so what
it reads may be what it has written.

* `copyLoop_stable`: as long as the writes leave the requested range of the source alone,
  the loop copies exactly what the source held.
* `copyLoop_fed`: a loop that always finds something to read copies all it was asked for.
* `copyFileRangeAt_exact`: a successful call copies exactly what the source held when it
  began, unless source and destination are one file, the source ends within the requested
  range and the destination lies behind it. Overlapping ranges of one file are rejected
  and nothing is written.
* `copy_feeds_on_its_output`: three bytes are copied behind the end of their own file,
  eight bytes are requested, and eight are copied.
-/

namespace FabricFs

open HostFs List

/-! ## Contents after a write -/

namespace HostFs

variable {data : Bytes} {offset : Nat}

theorem length_resized (data : Bytes) (size : Nat) : (resized data size).length = size := by
  simp only [resized, length_append, length_take, length_replicate]
  omega

theorem getElem?_resized (data : Bytes) (size i : Nat) :
    (resized data size)[i]? =
      if i < size then if i < data.length then data[i]? else some 0 else none := by
  by_cases hSize : i < size
  · rw [if_pos hSize, resized, List.getElem?_append, length_take]
    by_cases hData : i < data.length
    · rw [if_pos hData, if_pos (by omega), List.getElem?_take_of_lt hSize]
    · rw [if_neg hData, if_neg (by omega), List.getElem?_replicate, if_pos (by omega)]
  · rw [if_neg hSize, List.getElem?_eq_none]
    rw [length_resized]
    omega

theorem getElem?_stored (data : Bytes) (offset : Nat) (bytes : Bytes) (i : Nat) :
    (stored data offset bytes)[i]? =
      if offset ≤ i ∧ i < offset + bytes.length then bytes[i - offset]?
      else if i < data.length then data[i]?
      else if i < offset ∧ bytes ≠ [] then some 0
      else none := by
  unfold stored
  split
  · grind
  · rename_i hBytes
    rw [append_assoc, List.getElem?_append, length_resized, getElem?_resized,
      List.getElem?_append, List.getElem?_drop]
    grind

theorem length_stored {bytes : Bytes} (h : bytes ≠ []) :
    (stored data offset bytes).length = max data.length (offset + bytes.length) := by
  rw [stored, if_neg h, length_append, length_append, length_resized, length_drop]
  omega

theorem stored_stored (data : Bytes) (offset : Nat) {first : Bytes} (rest : Bytes)
    (hFirst : first ≠ []) :
    stored (stored data offset first) (offset + first.length) rest =
      stored data offset (first ++ rest) := by
  apply ext_getElem?
  intro i
  have hBoth : first ++ rest ≠ [] := by simp [hFirst]
  rw [getElem?_stored, getElem?_stored, getElem?_stored, length_stored hFirst, List.getElem?_append]
  grind

/-- A write behind a range leaves the range as it is, if the file reaches so far. -/
theorem range_stored_behind {start len : Nat} (bytes : Bytes) (hBehind : start + len ≤ offset)
    (hFile : start + len ≤ data.length) :
    ((stored data offset bytes).drop start).take len = (data.drop start).take len := by
  apply ext_getElem?
  intro i
  rw [List.getElem?_take, List.getElem?_take, List.getElem?_drop, List.getElem?_drop,
    getElem?_stored]
  grind

theorem range_stored_before {start len : Nat} {bytes : Bytes}
    (hBefore : offset + bytes.length ≤ start) :
    ((stored data offset bytes).drop start).take len = (data.drop start).take len := by
  apply ext_getElem?
  intro i
  rw [List.getElem?_take, List.getElem?_take, List.getElem?_drop, List.getElem?_drop,
    getElem?_stored]
  grind

@[simp] theorem writeAt_nil (fs : HostFs) (ino offset : Nat) : fs.writeAt ino offset [] = fs := by
  have hSame : (fun i => if i = ino then fs.inode ino else fs.inode i) = fs.inode := by
    funext i
    split
    · rename_i hi
      rw [hi]
    · rfl
  simp only [writeAt, modifyInode, setInode, stored, if_true, hSame]

theorem writeAt_inode (fs : HostFs) (ino offset : Nat) (bytes : Bytes) (i : Nat) :
    (fs.writeAt ino offset bytes).inode i =
      if i = ino then { fs.inode ino with data := stored (fs.inode ino).data offset bytes }
      else fs.inode i := rfl

theorem writeAt_writeAt (fs : HostFs) (ino offset : Nat) (first rest : Bytes) :
    (fs.writeAt ino offset first).writeAt ino (offset + first.length) rest =
      fs.writeAt ino offset (first ++ rest) := by
  by_cases hFirst : first = []
  · simp [hFirst]
  · simp only [writeAt, modifyInode, setInode, if_true, stored_stored _ _ _ hFirst]
    congr 1
    funext i
    split <;> rfl

end HostFs

namespace Server

open Lib Lib.Prog

/-! ## The loops -/

variable {env : Env} {w w' : World}
  {n baseOut copied rounds len chunk baseIn offsetIn offsetOut : Nat} {bytes : Bytes}
  {dst src : Node}

theorem checkedAdd_ok {a b c : Nat} (h : (result (checkedAdd a b) : Op Nat) env w = (.ok c, w')) :
    c = a + b ∧ w' = w := by
  rw [result_run, Prod.mk.injEq] at h
  obtain ⟨hAdd, rfl⟩ := h
  unfold checkedAdd at hAdd
  split at hAdd <;> cases hAdd
  exact ⟨rfl, rfl⟩

theorem writeAt_ok {file : Node} {offset : Nat} (h : writeAt file offset bytes env w =
    (.ok n, w')) :
    n ≤ bytes.length ∧ w'.fs = w.fs.writeAt file.ino offset (bytes.take n) := by
  obtain ⟨fs, hWrite, rfl⟩ := update_ok h
  cases hWrite
  exact ⟨Nat.min_le_left _ _, rfl⟩

/-- A chunk that was stored without an error is stored as a whole. -/
theorem writeChunk_ok {written : Nat} (hRounds : bytes.length ≤ rounds)
    (h : writeChunk dst baseOut copied rounds written bytes env w = (.ok (), w')) :
    w'.fs = w.fs.writeAt dst.ino (baseOut + copied + written) bytes := by
  induction rounds generalizing written bytes w with
  | zero =>
    obtain rfl := length_eq_zero_iff.mp (Nat.le_zero.mp hRounds)
    cases h
    exact (writeAt_nil _ _ _).symm
  | succ rounds ih =>
    simp only [writeChunk] at h
    split at h
    · rename_i hEmpty
      cases h
      rw [hEmpty, writeAt_nil]
    · obtain ⟨start, w₁, hStart, hRun⟩ := bind_ok h
      obtain ⟨rfl, rfl⟩ := checkedAdd_ok hStart
      obtain ⟨offset, w₂, hOffset, hRun₁⟩ := bind_ok hRun
      obtain ⟨rfl, rfl⟩ := checkedAdd_ok hOffset
      obtain ⟨n, w₃, hWrite, hRun₂⟩ := bind_ok hRun₁
      obtain ⟨hLe, hStored⟩ := writeAt_ok hWrite
      split at hRun₂
      · cases hRun₂
      · have hRest := ih (by rw [length_drop]; omega) hRun₂
        have hTake : (bytes.take n).length = n := length_take_of_le hLe
        rw [hRest, hStored]
        conv_lhs => rw [show baseOut + copied + (written + n) =
          baseOut + copied + written + (bytes.take n).length by omega]
        rw [writeAt_writeAt, take_append_drop]

/-- The bytes that a file holds in a range. -/
def rangeOf (fs : HostFs) (file : Node) (start len : Nat) : Bytes :=
  ((fs.inode file.ino).data.drop start).take len

/-- One read within a range returns some of what follows, and nothing only at the end. -/
theorem readAt_ok {file : Node} {start : Nat} (hChunk : 0 < chunk) (hCopied : copied < len)
    (h : readAt file (start + copied) (min (len - copied) chunk) env w = (.ok bytes, w')) :
    w'.fs = w.fs ∧ bytes = ((rangeOf w.fs file start len).drop copied).take bytes.length ∧
      (bytes = [] → (rangeOf w.fs file start len).length ≤ copied) := by
  obtain ⟨hRead, rfl⟩ := query_ok h
  cases hRead
  set data := (w.fs.inode file.ino).data
  set m := min (min (len - copied) chunk) (max 1 (env.transfer w.calls)) with hm
  have hPart : (data.drop (start + copied)).take m =
      ((rangeOf w.fs file start len).drop copied).take m := by
    rw [rangeOf, drop_take, take_take, drop_drop, min_eq_left (by omega)]
  refine ⟨rfl, ?_, fun hEmpty => ?_⟩
  · rw [hPart]
    exact take_eq_take_iff.mpr (by simp)
  · rw [hPart, take_eq_nil_iff] at hEmpty
    rcases hEmpty with hZero | hNil
    · omega
    · exact drop_eq_nil_iff.mp hNil

/-- What one round of the copy loop did. -/
theorem copyLoop_round (hChunk : 0 < chunk) (hCopied : copied < len)
    (h : copyLoop src dst baseIn baseOut len chunk (rounds + 1) copied env w = (.ok n, w')) :
    (rangeOf w.fs src baseIn len).length ≤ copied ∧ n = copied ∧ w'.fs = w.fs ∨
      ∃ bytes w₁, bytes ≠ [] ∧
        bytes = ((rangeOf w.fs src baseIn len).drop copied).take bytes.length ∧
        w₁.fs = w.fs.writeAt dst.ino (baseOut + copied) bytes ∧
        copyLoop src dst baseIn baseOut len chunk rounds (copied + bytes.length) env w₁ =
          (.ok n, w') := by
  rw [copyLoop, if_neg (by omega)] at h
  obtain ⟨offset, w₁, hOffset, hRun⟩ := bind_ok h
  obtain ⟨rfl, rfl⟩ := checkedAdd_ok hOffset
  obtain ⟨bytes, w₂, hRead, hRun₁⟩ := bind_ok hRun
  obtain ⟨hSame, hBytes, hEnd⟩ := readAt_ok hChunk hCopied hRead
  split at hRun₁
  · rename_i hEmpty
    cases hRun₁
    exact .inl ⟨hEnd hEmpty, rfl, hSame⟩
  · rename_i hSome
    obtain ⟨u, w₃, hWrite, hRest⟩ := bind_ok hRun₁
    have hStored := writeChunk_ok le_rfl hWrite
    rw [hSame, Nat.add_zero] at hStored
    exact .inr ⟨bytes, w₃, hSome, hBytes, hStored, hRest⟩

/-- Writes that leave the range of the source as it is make an exact copy. -/
theorem copyLoop_stable {fs : HostFs} {range : Bytes} (hChunk : 0 < chunk)
    (hLen : range.length ≤ len)
    (hStable : ∀ k, rangeOf (fs.writeAt dst.ino baseOut (range.take k)) src baseIn len = range)
    (hState : w.fs = fs.writeAt dst.ino baseOut (range.take copied))
    (hCopied : copied ≤ range.length) (hRounds : len ≤ copied + rounds)
    (h : copyLoop src dst baseIn baseOut len chunk rounds copied env w = (.ok n, w')) :
    n = range.length ∧ w'.fs = fs.writeAt dst.ino baseOut range := by
  have hDone : range.length ≤ copied → n = copied → w'.fs = w.fs →
      n = range.length ∧ w'.fs = fs.writeAt dst.ino baseOut range := by
    intro hAll hCount hSame
    refine ⟨hCount.trans (le_antisymm hCopied hAll), ?_⟩
    rw [hSame, hState, take_of_length_le hAll]
  induction rounds generalizing copied w with
  | zero =>
    cases h
    exact hDone (by omega) rfl rfl
  | succ rounds ih =>
    by_cases hEnough : len ≤ copied
    · rw [copyLoop, if_pos hEnough] at h
      cases h
      exact hDone (hLen.trans hEnough) rfl rfl
    · rcases copyLoop_round hChunk (by omega) h with
        ⟨hEnd, hCount, hSame⟩ | ⟨bytes, w₁, hSome, hBytes, hStored, hRest⟩
      · rw [hState, hStable] at hEnd
        exact hDone hEnd hCount hSame
      · rw [hState, hStable] at hBytes
        have hPos := length_pos_iff.mpr hSome
        have hMore : copied + bytes.length ≤ range.length := by
          have hLength := congrArg List.length hBytes
          rw [length_take, length_drop] at hLength
          omega
        have hState₁ : w₁.fs = fs.writeAt dst.ino baseOut (range.take (copied + bytes.length)) := by
          have hTake : (range.take copied).length = copied := length_take_of_le hCopied
          rw [take_add, ← hBytes, ← writeAt_writeAt, hTake, ← hState]
          exact hStored
        refine ih hState₁ hMore (by omega) hRest fun hAll hCount hSame => ?_
        exact ⟨hCount.trans (le_antisymm hMore hAll),
          by rw [hSame, hState₁, take_of_length_le hAll]⟩

/-- A file that is copied behind its own end always has something to read. -/
theorem copyLoop_fed (hChunk : 0 < chunk) (hSame : src.ino = dst.ino)
    (hBehind : baseIn + len ≤ baseOut)
    (hRead : baseIn + copied < (w.fs.inode src.ino).data.length ∨ len ≤ copied)
    (hGrown : copied = 0 ∨ baseIn + len ≤ (w.fs.inode src.ino).data.length)
    (hRounds : len ≤ copied + rounds)
    (h : copyLoop src dst baseIn baseOut len chunk rounds copied env w = (.ok n, w')) :
    len ≤ n := by
  induction rounds generalizing copied w with
  | zero =>
    cases h
    omega
  | succ rounds ih =>
    by_cases hEnough : len ≤ copied
    · rw [copyLoop, if_pos hEnough] at h
      cases h
      exact hEnough
    · rcases copyLoop_round hChunk (by omega) h with
        ⟨hEnd, -, -⟩ | ⟨bytes, w₁, hSome, -, hStored, hRest⟩
      · rw [rangeOf, length_take, length_drop] at hEnd
        omega
      · have hPos := length_pos_iff.mpr hSome
        have hLength : baseIn + len < (w₁.fs.inode src.ino).data.length := by
          rw [hStored, writeAt_inode, if_pos hSame, length_stored hSome]
          omega
        exact ih (by omega) (.inr hLength.le) (by omega) hRest

/-! ## The call -/

/-- What the destination should be after `n` bytes were copied, and that nothing else
changed. Bytes between the old end of the destination and the offset are new. -/
structure CopiedExactly (src dst : Node) (offsetIn offsetOut len n : Nat) (fs fs' : HostFs) :
    Prop where
  count : n = min len ((fs.inode src.ino).data.length - offsetIn)
  bytes : rangeOf fs' dst offsetOut n = rangeOf fs src offsetIn n
  before : ∀ i, i < offsetOut → i < (fs.inode dst.ino).data.length →
    (fs'.inode dst.ino).data[i]? = (fs.inode dst.ino).data[i]?
  behind : (fs'.inode dst.ino).data.drop (offsetOut + n) =
    (fs.inode dst.ino).data.drop (offsetOut + n)
  others : ∃ data, fs' = fs.modifyInode dst.ino (fun inode => { inode with data := data })

/-- The source ends within the requested range, and the copy goes behind its end. -/
def FeedsOnItself (src dst : Node) (offsetIn offsetOut len : Nat) (fs : HostFs) : Prop :=
  src.ino = dst.ino ∧ offsetIn < (fs.inode src.ino).data.length ∧
    (fs.inode src.ino).data.length < offsetIn + len ∧ offsetIn + len ≤ offsetOut

theorem copiedExactly_write (src dst : Node) (offsetIn offsetOut len : Nat) (fs : HostFs) :
    CopiedExactly src dst offsetIn offsetOut len (rangeOf fs src offsetIn len).length fs
      (fs.writeAt dst.ino offsetOut (rangeOf fs src offsetIn len)) := by
  set range := rangeOf fs src offsetIn len with hRange
  have hData : ((fs.writeAt dst.ino offsetOut range).inode dst.ino).data =
      stored (fs.inode dst.ino).data offsetOut range := by
    rw [writeAt_inode, if_pos rfl]
  refine ⟨?_, ?_, ?_, ?_, _, rfl⟩
  · rw [hRange, rangeOf, length_take, length_drop]
  · have hOwn : rangeOf fs src offsetIn range.length = range := by
      rw [hRange, rangeOf, rangeOf]
      exact (take_eq_take_iff.mpr (by simp)).symm
    rw [hOwn, rangeOf, hData]
    apply ext_getElem?
    intro i
    rw [List.getElem?_take, List.getElem?_drop, getElem?_stored]
    grind
  · intro i hBefore hOld
    rw [hData, getElem?_stored, if_neg (by omega), if_pos hOld]
  · rw [hData]
    apply ext_getElem?
    intro i
    rw [List.getElem?_drop, List.getElem?_drop, getElem?_stored]
    grind

theorem fs_of_reject {res : Except Errno Unit}
    (h : rejectOverlappingSameFileCopy src dst offsetIn offsetOut len env w = (res, w')) :
    w'.fs = w.fs := by
  have hUntimed : Overlay.Untimed (fun v => v.fs = w.fs) := fun _ _ hv => hv
  have hKeeps : Keeps env (fun v => v.fs = w.fs)
      (rejectOverlappingSameFileCopy src dst offsetIn offsetOut len) :=
    keeps_seq (Overlay.keeps_query hUntimed _) <|
      keeps_seq (Overlay.keeps_query hUntimed _) <|
        keeps_if (keeps_pure ()) <| keeps_seq (keeps_result _) <|
          keeps_seq (keeps_result _) <| keeps_ensure _ _
  have hAfter := hKeeps.after (s := w) rfl
  rwa [h] at hAfter

/-- Ranges of one file that pass the check are apart. -/
theorem apart_of_reject {u : Unit} (hSame : src.ino = dst.ino)
    (h : rejectOverlappingSameFileCopy src dst offsetIn offsetOut len env w = (.ok u, w')) :
    offsetIn + len ≤ offsetOut ∨ offsetOut + len ≤ offsetIn := by
  obtain ⟨srcMeta, w₁, hSrc, hRun⟩ := bind_ok h
  obtain ⟨dstMeta, w₂, hDst, hRun₁⟩ := bind_ok hRun
  obtain ⟨hSrcMeta, -⟩ := query_ok hSrc
  obtain ⟨hDstMeta, -⟩ := query_ok hDst
  have hInos : srcMeta.ino = dstMeta.ino := by
    cases hSrcMeta
    cases hDstMeta
    exact hSame
  rw [if_neg (by simpa using hInos)] at hRun₁
  obtain ⟨inputEnd, w₃, hIn, hRun₂⟩ := bind_ok hRun₁
  obtain ⟨outputEnd, w₄, hOut, hRun₃⟩ := bind_ok hRun₂
  have hApart := (ensure_ok hRun₃).1
  rw [(checkedAdd_ok hIn).1, (checkedAdd_ok hOut).1] at hApart
  simp only [Bool.not_eq_true', Bool.and_eq_false_iff, decide_eq_false_iff_not] at hApart
  omega

/-- The writes of a copy leave the requested range of the source alone, unless the copy
feeds on itself. -/
theorem range_stable {fs : HostFs}
    (hApart : src.ino = dst.ino → offsetIn + len ≤ offsetOut ∨ offsetOut + len ≤ offsetIn)
    (hFed : ¬ FeedsOnItself src dst offsetIn offsetOut len fs) (k : Nat) :
    rangeOf (fs.writeAt dst.ino offsetOut ((rangeOf fs src offsetIn len).take k)) src offsetIn
      len = rangeOf fs src offsetIn len := by
  by_cases hSame : src.ino = dst.ino
  · set part := (rangeOf fs src offsetIn len).take k with hPart
    have hPartLen : part.length ≤ len := by
      rw [hPart, rangeOf]
      simp
    have hData : ((fs.writeAt dst.ino offsetOut part).inode src.ino).data =
        stored (fs.inode src.ino).data offsetOut part := by
      rw [writeAt_inode, if_pos hSame, hSame]
    rw [rangeOf, hData]
    rcases hApart hSame with hBehind | hBefore
    · by_cases hEnd : offsetIn + len ≤ (fs.inode src.ino).data.length
      · exact range_stored_behind part hBehind hEnd
      · -- the source holds nothing in the range, so nothing is written
        have hStart : (fs.inode src.ino).data.length ≤ offsetIn := by
          by_contra hStart
          exact hFed ⟨hSame, by omega, by omega, hBehind⟩
        have hNone : part = [] := by
          rw [hPart, rangeOf, drop_eq_nil_of_le hStart]
          simp
        rw [hNone, stored, if_pos rfl]
        rfl
    · exact range_stored_before (by omega)
  · rw [rangeOf, writeAt_inode, if_neg hSame]
    rfl

/-- Every successful call copies exactly what the source held, unless the copy feeds on its
own output; overlapping ranges of one file are rejected and nothing is written. -/
theorem copyFileRangeAt_exact (src dst : Node) (offsetIn offsetOut : Int) (len : Nat)
    (limits : FsLimits) (env : Env) (w : World) :
    (∀ n w', copyFileRangeAt src dst offsetIn offsetOut len limits env w = (.ok n, w') →
      (CopiedExactly src dst offsetIn.toNat offsetOut.toNat len n w.fs w'.fs ↔
        ¬ FeedsOnItself src dst offsetIn.toNat offsetOut.toNat len w.fs)) ∧
    (src.ino = dst.ino → 0 < len → offsetIn < offsetOut + len → offsetOut < offsetIn + len →
      ∃ e w', copyFileRangeAt src dst offsetIn offsetOut len limits env w = (.error e, w') ∧
        w'.fs = w.fs) := by
  constructor
  · intro n w' h
    obtain ⟨u, w₁, hEnsure, hRun⟩ := bind_ok h
    obtain ⟨-, hFirst⟩ := ensure_ok hEnsure
    subst w₁
    split at hRun
    · rename_i hZero
      subst hZero
      cases hRun
      have hNone := copiedExactly_write src dst offsetIn.toNat offsetOut.toNat 0 w.fs
      rw [rangeOf, take_zero, writeAt_nil] at hNone
      refine iff_of_true hNone ?_
      rintro ⟨-, hStart, hEnd, -⟩
      omega
    · rename_i hLen
      obtain ⟨u, w₂, hReject, hLoop⟩ := bind_ok hRun
      have hFs : w₂.fs = w.fs := fs_of_reject hReject
      have hApart := fun hSame => apart_of_reject hSame hReject
      have hChunk : 0 < max (min limits.ioChunkBytes len) 1 := by omega
      constructor
      · -- a copy that feeds on itself returns the whole length
        rintro hExact ⟨hSame, hStart, hEnd, hBehind⟩
        have hAll := copyLoop_fed hChunk hSame hBehind (.inl (by rw [hFs]; omega)) (.inl rfl)
          (by omega) hLoop
        have hCount := hExact.count
        omega
      · intro hFed
        have hStable := range_stable hApart hFed
        have hZero : w₂.fs = w.fs.writeAt dst.ino offsetOut.toNat
            ((rangeOf w.fs src offsetIn.toNat len).take 0) := by
          rw [take_zero, writeAt_nil, hFs]
        have hRangeLen : (rangeOf w.fs src offsetIn.toNat len).length ≤ len := by
          rw [rangeOf, length_take]
          exact Nat.min_le_left _ _
        obtain ⟨rfl, hStored⟩ := copyLoop_stable hChunk hRangeLen hStable hZero (Nat.zero_le _)
          (by omega) hLoop
        rw [hStored]
        exact copiedExactly_write src dst offsetIn.toNat offsetOut.toNat len w.fs
  · intro hSame hLen hIn hOut
    by_cases hNat : 0 ≤ offsetIn ∧ 0 ≤ offsetOut
    · have hEnsure : (ensure (decide (0 ≤ offsetIn) && decide (0 ≤ offsetOut)) .einval : Op Unit)
          env w = (.ok (), w) := by
        rw [ensure, if_pos (by simpa using hNat)]
        rfl
      rcases hReject : rejectOverlappingSameFileCopy src dst offsetIn.toNat offsetOut.toNat len
        env w with ⟨e | u, w'⟩
      · refine ⟨e, w', ?_, ?_⟩
        · rw [copyFileRangeAt, bind_run_ok hEnsure, if_neg (by omega), bind_run_error hReject]
        · exact fs_of_reject hReject
      · have hApart := apart_of_reject hSame hReject
        omega
    · refine ⟨.einval, w, ?_, rfl⟩
      rw [copyFileRangeAt]
      refine bind_run_error ?_
      rw [ensure, if_neg (by simpa using hNat)]
      rfl

/-! ## A copy that feeds on itself -/

/-- A file of three bytes, open for reading and writing. -/
def threeBytes : World :=
  started (Overlay.fsOf [⟨.backing, [nameOf "f"], .file, 0o644, [1, 2, 3]⟩])

/-- All three bytes are copied behind the end of the file. -/
theorem copyFileRangeAt_exact_three_bytes :
    CopiedExactly ⟨.file, 10⟩ ⟨.file, 10⟩ 0 5 3 3 threeBytes.fs
      (copyFileRangeAt ⟨.file, 10⟩ ⟨.file, 10⟩ 0 5 3 ⟨2, 4096⟩ Overlay.sampleEnv
        threeBytes).2.fs := by
  have hOk : (copyFileRangeAt ⟨.file, 10⟩ ⟨.file, 10⟩ 0 5 3 ⟨2, 4096⟩ Overlay.sampleEnv
      threeBytes).1 = .ok 3 := by decide +kernel
  refine ((copyFileRangeAt_exact ⟨.file, 10⟩ ⟨.file, 10⟩ 0 5 3 ⟨2, 4096⟩ Overlay.sampleEnv
    threeBytes).1 3 _ (Prod.ext hOk rfl)).mpr ?_
  rintro ⟨-, -, hEnd, -⟩
  revert hEnd
  decide +kernel

/-- Eight bytes are requested of a file with three, to go behind its end: eight are copied. -/
theorem copy_feeds_on_its_output :
    let run := copyFileRangeAt ⟨.file, 10⟩ ⟨.file, 10⟩ 0 10 8 ⟨4096, 4096⟩ Overlay.sampleEnv
      threeBytes
    run.1 = .ok 8 ∧ (threeBytes.fs.inode 10).data = [1, 2, 3] ∧
      (run.2.fs.inode 10).data = [1, 2, 3, 0, 0, 0, 0, 0, 0, 0, 1, 2, 3, 0, 0, 0, 0, 0] := by
  decide +kernel

end Server

end FabricFs
