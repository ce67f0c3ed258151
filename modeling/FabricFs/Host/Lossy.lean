import FabricFs.Host.Names

/-!
# `to_string_lossy` and separators

An ASCII byte continues no UTF-8 sequence, so a lossy conversion works on the parts before
and after it apart. The conversion never shortens a text. So the parts of a UTF-8 text
between ASCII separators are UTF-8.

* `toStringLossy_append`, `Utf8.split`.
-/

namespace FabricFs

theorem matched_le_length (ranges : List (UInt8 × UInt8)) (bytes : Bytes) :
    matched ranges bytes ≤ ranges.length ∧ matched ranges bytes ≤ bytes.length := by
  induction ranges generalizing bytes with
  | nil => simp [matched]
  | cons range ranges ih =>
    cases bytes with
    | nil => simp [matched]
    | cons b bytes =>
      rw [matched]
      split
      · have hRest := ih bytes
        simp only [List.length_cons]
        omega
      · simp

/-- With enough fuel it does not matter how much there is. -/
theorem toStringLossyAux_eq {fuel fuel' : Nat} {bytes : Bytes} (h : bytes.length ≤ fuel)
    (h' : bytes.length ≤ fuel') : toStringLossyAux fuel bytes = toStringLossyAux fuel' bytes := by
  induction fuel generalizing fuel' bytes with
  | zero =>
    obtain rfl : bytes = [] := List.length_eq_zero_iff.mp (Nat.le_zero.mp h)
    cases fuel' <;> rfl
  | succ fuel ih =>
    cases bytes with
    | nil => cases fuel' <;> rfl
    | cons first bytes =>
      cases fuel' with
      | zero => cases h'
      | succ fuel' =>
        rw [List.length_cons] at h h'
        have hDrop : ∀ n, toStringLossyAux fuel (bytes.drop n) =
            toStringLossyAux fuel' (bytes.drop n) := by
          intro n
          apply ih
          all_goals
            rw [List.length_drop]
            omega
        rw [toStringLossyAux, toStringLossyAux]
        split
        · rw [← List.drop_zero (l := bytes), hDrop]
        · simp only [hDrop]

theorem toStringLossy_cons (first : UInt8) (bytes : Bytes) :
    toStringLossy (first :: bytes) =
      match continuations first with
      | none => replacement ++ toStringLossy bytes
      | some ranges =>
        let n := matched ranges bytes
        if n = ranges.length then first :: bytes.take n ++ toStringLossy (bytes.drop n)
        else replacement ++ toStringLossy (bytes.drop n) := by
  have hDrop : ∀ n, toStringLossyAux bytes.length (bytes.drop n) =
      toStringLossy (bytes.drop n) := fun n =>
    toStringLossyAux_eq (by rw [List.length_drop]; omega) (Nat.le_refl _)
  rw [toStringLossy, List.length_cons, toStringLossyAux]
  simp only [hDrop]
  rfl

theorem continuations_spec {first : UInt8} {ranges : List (UInt8 × UInt8)}
    (h : continuations first = some ranges) :
    ranges.length ≤ 3 ∧ ∀ range ∈ ranges, (0x80 : UInt8) ≤ range.1 := by
  unfold continuations at h
  simp only at h
  repeat' split at h
  all_goals cases h
  all_goals simp

/-- A byte below all ranges ends the match. -/
theorem matched_append {ranges : List (UInt8 × UInt8)} {sep : UInt8}
    (h : ∀ range ∈ ranges, ¬ range.1 ≤ sep) (bytes rest : Bytes) :
    matched ranges (bytes ++ sep :: rest) = matched ranges bytes := by
  induction ranges generalizing bytes with
  | nil => simp [matched]
  | cons range ranges ih =>
    obtain ⟨hRange, hRanges⟩ := List.forall_mem_cons.mp h
    cases bytes with
    | nil => simp [matched, hRange]
    | cons b bytes => rw [List.cons_append, matched, matched, ih hRanges]

theorem continuations_ascii {sep : UInt8} (h : sep < 0x80) : continuations sep = some [] := by
  rw [continuations]
  exact if_pos h

theorem toStringLossy_append {sep : UInt8} (hSep : sep < 0x80) (bytes rest : Bytes) :
    toStringLossy (bytes ++ sep :: rest) = toStringLossy bytes ++ sep :: toStringLossy rest := by
  induction hLength : bytes.length using Nat.strong_induction_on generalizing bytes with
  | _ n ih =>
    cases bytes with
    | nil =>
      rw [List.nil_append, toStringLossy_cons, continuations_ascii hSep]
      simp [matched, toStringLossy, toStringLossyAux]
    | cons first bytes =>
      rw [List.length_cons] at hLength
      rw [List.cons_append, toStringLossy_cons, toStringLossy_cons]
      cases hFirst : continuations first with
      | none =>
        simp only [ih bytes.length (by omega) bytes rfl, List.append_assoc]
      | some ranges =>
        have hLow : ∀ range ∈ ranges, ¬ range.1 ≤ sep := by
          intro range hMem hLe
          have hHigh := (continuations_spec hFirst).2 range hMem
          exact absurd (UInt8.le_trans hHigh hLe) (UInt8.not_le.mpr hSep)
        have hWithin := (matched_le_length ranges bytes).2
        have hRest := ih (bytes.drop (matched ranges bytes)).length
          (by rw [List.length_drop]; omega) _ rfl
        simp only [matched_append hLow, List.take_append_of_le_length hWithin,
          List.drop_append_of_le_length hWithin, hRest]
        split
        · simp only [List.cons_append, List.append_assoc]
        · simp only [List.append_assoc]

theorem length_le_toStringLossy (bytes : Bytes) :
    bytes.length ≤ (toStringLossy bytes).length := by
  induction hLength : bytes.length using Nat.strong_induction_on generalizing bytes with
  | _ n ih =>
    subst hLength
    cases bytes with
    | nil => exact Nat.zero_le _
    | cons first bytes =>
      rw [toStringLossy_cons]
      cases hFirst : continuations first with
      | none =>
        have hRest := ih bytes.length (Nat.lt_succ_self _) bytes rfl
        simp only [List.length_append, List.length_cons, replacement, List.length_nil]
        omega
      | some ranges =>
        have hRanges := (continuations_spec hFirst).1
        obtain ⟨hMatched, hWithin⟩ := matched_le_length ranges bytes
        have hRest := ih (bytes.drop (matched ranges bytes)).length
          (by rw [List.length_drop, List.length_cons]; omega) _ rfl
        rw [List.length_drop] at hRest
        simp only
        split
        · simp only [List.length_append, List.length_cons, List.length_take]
          omega
        · simp only [List.length_append, List.length_cons, replacement, List.length_nil]
          omega

/-- Both sides of an ASCII byte in a UTF-8 text are UTF-8. -/
theorem Utf8.split {sep : UInt8} (hSep : sep < 0x80) {bytes rest : Bytes}
    (h : Utf8 (bytes ++ sep :: rest)) : Utf8 bytes ∧ Utf8 rest := by
  unfold Utf8 at h
  rw [toStringLossy_append hSep] at h
  have hLength := congrArg List.length h
  have hFirst := length_le_toStringLossy bytes
  have hRest := length_le_toStringLossy rest
  simp only [List.length_append, List.length_cons] at hLength
  obtain ⟨hBytes, hTail⟩ := List.append_inj h (by omega)
  exact ⟨hBytes, (List.cons.inj hTail).2⟩

end FabricFs
