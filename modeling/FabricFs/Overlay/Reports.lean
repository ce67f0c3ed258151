import FabricFs.Overlay.Rules

/-!
# What requests report

On a host without faults the answer to a request for information depends on the file
system alone, not on the handles, the locks or the number of calls made before.

* `triple_readFileAt`: a read returns the bytes of the range that the file has, however
  many of them a single call moves.
* `determined_listDir`, `determined_stat`, `determined_read`: the answers of `list_dir`,
  `stat` and `read`.
-/

namespace FabricFs.Overlay

open Lib Lib.Prog Server List

/-- The same host without faults. -/
def quiet (env : Env) : Env := { env with fault := fun _ => none }

/-- The answer to a request when no host call fails. -/
def answer (env : Env) (request : Request) (w : World) : Except Errno Response :=
  (exec request (quiet env) w).1

/-- The file system is the given one, and the number of calls does not matter. -/
structure Fixed (fs : HostFs) (I : World → Prop) : Prop where
  untimed : Untimed I
  fs_eq : ∀ w, I w → w.fs = fs

variable {env : Env} {I : World → Prop} {fs : HostFs} {α : Type}

/-! ## Contents -/

section Contents

variable {E : World → Prop} (hU : Untimed I)
  (hFault : ∀ w fault, I w → env.fault w.calls = some fault → E { w with calls := w.calls + 1 })

include hFault

theorem triple_query_or {f : Env → World → Except Errno α} {Q : α → World → Prop}
    (h : ∀ w, I w → ∃ a, f env w = .ok a ∧ Q a { w with calls := w.calls + 1 }) :
    Triple env I (query f) Q E := by
  intro w hw
  unfold query
  cases hf : env.fault w.calls with
  | some fault => exact hFault w fault hw hf
  | none =>
    obtain ⟨a, ha, hQ⟩ := h w hw
    rw [ha]
    exact hQ

omit hFault in
/-- What is left to read after a part of the range. -/
theorem take_split (data : Bytes) {n wanted : Nat} (h : n ≤ wanted) :
    data.take wanted =
      data.take n ++ (data.drop (data.take n).length).take (wanted - (data.take n).length) := by
  have hLen : (data.take n).length ≤ wanted := le_trans (length_take_le n data) h
  conv_lhs => rw [← take_append_drop (data.take n).length data]
  have hTake : data.take (data.take n).length = data.take n := by
    rw [length_take, take_eq_take_iff]
    omega
  rw [hTake, take_append, take_of_length_le hLen]

include hU

/-- The loop returns the bytes of the range, unless a call fails. -/
theorem triple_readLoop {file : Node} {data : Bytes}
    (hData : ∀ w, I w → (w.fs.inode file.ino).data = data) {chunkSize : Nat}
    (hc : 0 < chunkSize) : ∀ rounds offset wanted total, wanted ≤ rounds →
      Triple env I (readLoop file chunkSize rounds offset wanted total)
        (fun bytes w => I w ∧ bytes = total ++ (data.drop offset).take wanted) E := by
  intro rounds
  induction rounds with
  | zero =>
    intro offset wanted total hw
    obtain rfl := Nat.le_zero.mp hw
    exact triple_pure (fun w hw => ⟨hw, by simp⟩)
  | succ rounds ih =>
    intro offset wanted total hRounds
    unfold readLoop
    refine triple_ite (fun hZero => triple_pure (fun w hw => ⟨hw, by simp [hZero]⟩))
      (fun hWanted => ?_)
    -- a call moves at least one byte if there are any
    refine triple_bind (Q := fun bytes w => I w ∧ ∃ n, 0 < n ∧ n ≤ wanted ∧
      bytes = (data.drop offset).take n) (triple_query_or hFault fun w hw => ?_)
      (fun bytes => ?_)
    · refine ⟨_, rfl, hU w _ hw, min (min wanted chunkSize) (max 1 (env.transfer w.calls)),
        ?_, ?_, by rw [hData w hw]⟩
      · omega
      · omega
    · refine triple_fact fun hBytes => ?_
      obtain ⟨n, hPos, hLe, rfl⟩ := hBytes
      refine triple_ite (fun hEnd => triple_pure fun w hw => ⟨hw, ?_⟩) (fun hMore => ?_)
      · have hNil : data.drop offset = [] := by
          rw [take_eq_nil_iff] at hEnd
          exact hEnd.resolve_left (by omega)
        simp [hNil]
      · have hLen : 0 < ((data.drop offset).take n).length := length_pos_iff.mpr hMore
        rw [take_split _ hLe, ← append_assoc, drop_drop]
        exact ih _ _ _ (by omega)

/-- A read returns the bytes of the range that the file has. -/
theorem triple_readFileAt {file : Node} {data : Bytes}
    (hData : ∀ w, I w → (w.fs.inode file.ino).data = data) {offset : Int} (hOffset : 0 ≤ offset)
    (size : Int) {limits : FsLimits} (hc : 0 < limits.ioChunkBytes) :
    Triple env I (readFileAt file offset size limits) (fun bytes w => I w ∧
      bytes = (data.drop offset.toNat).take (min size limits.maxReadBytes).toNat) E := by
  unfold readFileAt
  rw [decide_eq_true hOffset]
  refine triple_seq (triple_done) (triple_then (Q := I)
    (triple_query_or hFault fun w hw => ⟨(), rfl, hU w _ hw⟩) ?_)
  exact triple_readLoop hU hFault hData hc _ _ _ [] le_rfl

end Contents

section Quiet

variable (hQuiet : ∀ n, env.fault n = none)

include hQuiet

/-! ## Calls -/

theorem reports_query (hU : Untimed I) {f : Env → World → Except Errno α} {res : Except Errno α}
    (h : ∀ w, I w → f env w = res) : Reports env I (query f) res := by
  intro w hw
  rw [query_state]
  refine ⟨?_, hU w _ hw⟩
  unfold query
  rw [hQuiet]
  exact h w hw

omit hQuiet in
theorem reports_probe {f : Env → World → α} {a : α} (h : ∀ w, I w → f env w = a) :
    Reports env I (probe f) (.ok a) := fun w hw => ⟨congrArg _ (h w hw), hw⟩

theorem determined_query (hI : Fixed fs I) {f : Env → World → Except Errno α}
    (h : ∀ w, f env w = f env (started w.fs)) : Determined env I (query f) := by
  refine ⟨f env (started fs), reports_query hQuiet hI.untimed fun w hw => ?_⟩
  rw [h, hI.fs_eq w hw]

omit hQuiet in
theorem determined_probe (hI : Fixed fs I) {f : Env → World → α}
    (h : ∀ w, f env w = f env (started w.fs)) : Determined env I (probe f) := by
  refine ⟨.ok (f env (started fs)), reports_probe fun w hw => ?_⟩
  rw [h, hI.fs_eq w hw]

theorem reports_readFileAt (hI : Fixed fs I) (file : Node) {offset : Int} (hOffset : 0 ≤ offset)
    (size : Int) {limits : FsLimits} (hc : 0 < limits.ioChunkBytes) :
    Reports env I (readFileAt file offset size limits)
      (.ok (((fs.inode file.ino).data.drop offset.toNat).take
        (min size limits.maxReadBytes).toNat)) := by
  refine reports_of_triple (triple_readFileAt hI.untimed (fun w fault _ hf => ?_)
    (fun w hw => by rw [hI.fs_eq w hw]) hOffset size hc)
  rw [hQuiet] at hf
  cases hf

theorem determined_readFileAt (hI : Fixed fs I) (file : Node) (offset size : Int)
    {limits : FsLimits} (hc : 0 < limits.ioChunkBytes) :
    Determined env I (readFileAt file offset size limits) := by
  by_cases hOffset : 0 ≤ offset
  · exact ⟨_, reports_readFileAt hQuiet hI file hOffset size hc⟩
  · unfold readFileAt
    rw [decide_eq_false hOffset]
    exact ⟨_, reports_bind_error (reports_throw _) _⟩

/-! ## Requests for information -/

omit hQuiet in
theorem determined_resolveExisting (hI : Fixed fs I) (rel : Path) :
    Determined env I (resolveExisting rel) := by
  refine determined_bind (determined_probe hI fun _ => rfl) (fun found => ?_)
  cases found with
  | none => exact determined_throw _
  | some loc => exact determined_pure loc

theorem determined_stat (hI : Fixed fs I) (rel : Path) : Determined env I (stat rel) :=
  determined_bind (determined_resolveExisting hI rel) (fun _ =>
    determined_query hQuiet hI fun _ => rfl)

theorem determined_read (hI : Fixed fs I) (rel : Path) (offset size : Int)
    (ctx : Option FuseContext) : Determined env I (read rel offset size ctx) := by
  have hc : 0 < env.limits.validated.ioChunkBytes := Nat.lt_of_lt_of_le one_pos (le_max_right _ _)
  have hCtx : Determined env I (requireContext ctx) := by
    cases ctx with
    | none => exact determined_throw _
    | some ctx => exact determined_pure ctx
  refine determined_bind hCtx (fun ctx => ?_)
  refine determined_bind (determined_resolveExisting hI rel) (fun loc => ?_)
  refine determined_ask (determined_bind (determined_query hQuiet hI fun _ => rfl) (fun file => ?_))
  refine determined_bind (determined_query hQuiet hI fun _ => rfl) (fun info => ?_)
  refine determined_bind (determined_ensure _ _) (fun _ => ?_)
  exact determined_readFileAt hQuiet hI file offset size hc

theorem determined_dirSide (hI : Fixed fs I) (loc : Option Loc) :
    Determined env I (dirSide loc) := by
  have hCall : ∀ {β : Type} {f : Env → World → Except Errno β},
      (∀ w, f env w = f env (started w.fs)) → Determined env I (query f) :=
    fun h => determined_query hQuiet hI h
  cases loc with
  | none => exact determined_pure none
  | some loc =>
    have hView : Determined env I (dirViewPath loc) :=
      determined_bind (hCall fun _ => rfl) (fun _ => determined_ite
        (determined_bind (hCall fun _ => rfl) (fun _ => determined_bind (determined_ensure _ _)
          (fun _ => determined_bind (hCall fun _ => rfl) (fun _ => determined_pure _))))
        (determined_bind (determined_ensure _ _) (fun _ => determined_pure _)))
    exact determined_bind (determined_probe hI fun _ => rfl) (fun _ => determined_ite
      (determined_bind hView (fun _ => determined_pure _)) (determined_pure none))

theorem determined_resolveDir (hI : Fixed fs I) (rel : Path) : Determined env I (resolveDir rel) :=
  determined_ask (determined_bind (determined_probe hI fun _ => rfl) (fun _ =>
    determined_bind (determined_ensure _ _) (fun _ =>
      determined_bind (determined_dirSide hQuiet hI _) (fun _ => determined_ite
        (determined_pure _) (determined_bind (determined_dirSide hQuiet hI _) (fun _ =>
          determined_bind (determined_ensure _ _) (fun _ => determined_pure _)))))))

theorem determined_listEntries (hI : Fixed fs I) (rel : Path) (dir : Loc)
    (seen names : List Name) : Determined env I (listEntries rel dir seen names) := by
  induction names with
  | nil => exact determined_pure []
  | cons n names ih =>
    exact determined_bind (determined_query hQuiet hI fun _ => rfl) (fun _ =>
      determined_ite ih (determined_bind (determined_probe hI fun _ => rfl) (fun _ =>
        determined_ite ih (determined_bind (determined_query hQuiet hI fun _ => rfl) (fun _ =>
          determined_bind ih (fun _ => determined_pure _))))))

theorem determined_listDir (hI : Fixed fs I) (rel : Path) : Determined env I (listDir rel) := by
  have hSide : ∀ dir seen, Determined env I (listSide rel dir seen) := by
    intro dir seen
    cases dir with
    | none => exact determined_pure []
    | some dir => exact determined_bind (determined_query hQuiet hI fun _ => rfl) (fun _ =>
        determined_listEntries hQuiet hI rel dir seen _)
  exact determined_bind (determined_resolveDir hQuiet hI rel) (fun _ =>
    determined_bind (hSide _ _) (fun _ => determined_bind (hSide _ _) (fun _ =>
      determined_pure _)))

/-- The reads of attributes, given that the stored tables are determined. -/
theorem determined_getxattr (hI : Fixed fs I) (hTable : ∀ key, Determined env I (loadTable key))
    (rel : Path) (name : Bytes) (size : Nat) : Determined env I (getxattr rel name size) := by
  have hSized : ∀ value : Bytes, Determined env I (if size = 0 then
      pure (List.replicate value.length 0) else do
        ensure (decide (value.length ≤ size)) Errno.erange
        pure value) := fun value =>
    determined_ite (determined_pure _) (determined_bind (determined_ensure _ _) (fun _ =>
      determined_pure _))
  refine determined_bind (determined_resolveExisting hI rel) (fun loc => determined_ite ?_ ?_)
  · exact determined_bind (determined_query hQuiet hI fun _ => rfl) hSized
  · refine determined_bind (determined_bind (determined_query hQuiet hI fun _ => rfl)
      (fun _ => determined_pure _)) (fun key => determined_bind (hTable key) (fun table => ?_))
    split
    · exact determined_throw _
    · exact hSized _

theorem determined_listxattr (hI : Fixed fs I) (hTable : ∀ key, Determined env I (loadTable key))
    (rel : Path) : Determined env I (listxattr rel) := by
  have hNames : ∀ loc, Determined env I (listXattrNames loc true) := fun loc =>
    determined_tryCatch (determined_bind (determined_query hQuiet hI fun _ => rfl) (fun _ =>
      determined_ite (determined_pure _) (determined_bind
        (determined_query hQuiet hI fun _ => rfl) (fun _ => determined_pure _))))
      (fun _ => determined_ite (determined_pure _) (determined_throw _))
  exact determined_bind (determined_resolveExisting hI rel) (fun _ =>
    determined_bind (hNames _) (fun _ => determined_bind (determined_bind
      (determined_query hQuiet hI fun _ => rfl) (fun _ => determined_pure _)) (fun _ =>
        determined_bind (hTable _) (fun _ => determined_pure _))))

end Quiet

end FabricFs.Overlay
