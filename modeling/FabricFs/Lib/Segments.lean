import Mathlib.Data.List.Basic

/-!
# Lists cut at a separator

A list in which every segment has the separator in front is its list of segments: the
segments are read back by `splitOn`, and the list starts with another one, at the end of a
segment, exactly when the segments do.

* `splitOn_joined`: the segments are read back.
* `joined_prefix_iff`: initial parts of the list and of the segments.
-/

namespace Lib.Segments

variable {α : Type} {sep : α}

/-- Every segment with the separator in front. -/
def joined (sep : α) (segments : List (List α)) : List α := segments.flatMap (sep :: ·)

@[simp] theorem joined_nil : joined sep [] = [] := rfl

@[simp] theorem joined_cons (segment : List α) (segments : List (List α)) :
    joined sep (segment :: segments) = sep :: (segment ++ joined sep segments) := rfl

theorem joined_append (first rest : List (List α)) :
    joined sep (first ++ rest) = joined sep first ++ joined sep rest :=
  List.flatMap_append

theorem intercalate_cons (segment : List α) (segments : List (List α)) :
    [sep].intercalate (segment :: segments) = segment ++ joined sep segments := by
  induction segments generalizing segment with
  | nil => simp [List.intercalate]
  | cons next rest ih =>
    rw [joined_cons, ← ih next]
    simp [List.intercalate]

variable [DecidableEq α]

theorem splitOn_append_joined {segment : List α} {segments : List (List α)}
    (hSegment : sep ∉ segment) (hSegments : ∀ s ∈ segments, sep ∉ s) :
    (segment ++ joined sep segments).splitOn sep = segment :: segments := by
  rw [← intercalate_cons]
  exact List.splitOn_intercalate sep (List.forall_mem_cons.mpr ⟨hSegment, hSegments⟩)
    (List.cons_ne_nil _ _)

theorem splitOn_joined {segments : List (List α)} (h : ∀ s ∈ segments, sep ∉ s) :
    (joined sep segments).splitOn sep = [] :: segments :=
  splitOn_append_joined List.not_mem_nil h

theorem joined_injective {segments segments' : List (List α)} (h : ∀ s ∈ segments, sep ∉ s)
    (h' : ∀ s ∈ segments', sep ∉ s) (hEq : joined sep segments = joined sep segments') :
    segments = segments' := by
  have hSplit := congrArg (List.splitOn sep) hEq
  rw [splitOn_joined h, splitOn_joined h'] at hSplit
  exact (List.cons.inj hSplit).2

/-- What follows an initial part is nothing, or starts with the separator. -/
theorem joined_prefix_iff {segments segments' : List (List α)} (h : ∀ s ∈ segments, sep ∉ s)
    (h' : ∀ s ∈ segments', sep ∉ s) :
    (∃ rest, (rest = [] ∨ ∃ tail, rest = sep :: tail) ∧
      joined sep segments' = joined sep segments ++ rest) ↔ segments <+: segments' := by
  constructor
  · rintro ⟨rest, rfl | ⟨tail, rfl⟩, hEq⟩
    · rw [List.append_nil] at hEq
      exact ⟨[], by rw [List.append_nil, joined_injective h' h hEq]⟩
    · have hSplit := congrArg (List.splitOn sep) hEq
      rw [List.splitOn_append_cons_of_beq _ _ (beq_self_eq_true sep), splitOn_joined h,
        splitOn_joined h', List.cons_append] at hSplit
      exact ⟨tail.splitOn sep, (List.cons.inj hSplit).2.symm⟩
  · rintro ⟨tail, rfl⟩
    refine ⟨joined sep tail, ?_, joined_append segments tail⟩
    cases tail with
    | nil => exact .inl rfl
    | cons segment tail => exact .inr ⟨_, rfl⟩

/-- No segment contains the separator. -/
theorem not_mem_of_mem_splitOn {l segment : List α} (h : segment ∈ l.splitOn sep) :
    sep ∉ segment := by
  induction l generalizing segment with
  | nil =>
    rw [List.splitOn_nil, List.mem_singleton] at h
    rw [h]
    exact List.not_mem_nil
  | cons x l ih =>
    rw [List.splitOn_cons_eq_if_modifyHead] at h
    split at h
    · rcases List.mem_cons.mp h with rfl | h
      · exact List.not_mem_nil
      · exact ih h
    · rename_i hx
      obtain ⟨first, rest, hSplit⟩ := List.exists_cons_of_ne_nil (List.splitOn_ne_nil sep l)
      rw [hSplit, List.modifyHead_cons] at h
      rcases List.mem_cons.mp h with rfl | h
      · rw [List.mem_cons, not_or]
        refine ⟨fun hEq => hx (by simp [hEq]), ih ?_⟩
        rw [hSplit]
        exact List.mem_cons_self
      · refine ih ?_
        rw [hSplit]
        exact List.mem_cons_of_mem _ h

/-- A list that starts with the separator is joined from its segments. -/
theorem joined_splitOn {l : List α} (h : l.head? = some sep) :
    joined sep ((l.splitOn sep).drop 1) = l := by
  cases l with
  | nil => cases h
  | cons x l =>
    obtain rfl : x = sep := Option.some.inj h
    have hSplit : (x :: l).splitOn x = [] :: l.splitOn x := by
      rw [List.splitOn_cons_eq_if_modifyHead, if_pos (beq_self_eq_true x)]
    have hJoin : [x].intercalate ((x :: l).splitOn x) = x :: l := List.intercalate_splitOn x
    rw [hSplit, intercalate_cons, List.nil_append] at hJoin
    rw [hSplit]
    exact hJoin

end Lib.Segments
