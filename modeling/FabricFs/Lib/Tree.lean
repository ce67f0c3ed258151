import Mathlib.Data.List.Dedup
import Mathlib.Data.List.Infix
import FabricFs.Lib.Dict

/-!
# Finite rooted trees addressed by paths

A tree assigns a value to finitely many paths. The root is a branch and only branches
have children; the structure carries both facts, so every tree that can be built is a
tree. The three updates add a leaf, remove a childless node and move a subtree. Each one
checks what it needs and leaves the tree as it is otherwise, and each has one lemma that
says what is found at every path afterwards (`get_add`, `get_erase`, `get_move`).
-/

namespace Lib

open List

/-- A finite tree with edges labelled by `N` and values in `V`. -/
structure Tree (N V : Type) (branch : V → Bool) where
  get : List N → Option V
  /-- All occupied paths are here, possibly with others. -/
  dom : List (List N)
  mem_dom : ∀ p v, get p = some v → p ∈ dom
  root_branch : ∃ v, get [] = some v ∧ branch v = true
  parent_branch : ∀ p n v, get (p ++ [n]) = some v → ∃ u, get p = some u ∧ branch u = true

namespace Tree

variable {N V : Type} {branch : V → Bool}

/-! ## Ancestors -/

section Ancestors

variable (t : Tree N V branch)

/-- The path holds a branch. -/
def isBranch (p : List N) : Bool := (t.get p).any branch

/-- Some proper initial segment of the path holds a value that is no branch. -/
def blocked (p : List N) : Bool :=
  (List.range p.length).any (fun k => (t.get (p.take k)).any (fun v => !branch v))

variable {t}

variable {p : List N}

theorem isBranch_iff : t.isBranch p = true ↔ ∃ v, t.get p = some v ∧ branch v = true := by
  simp [isBranch, Option.any_eq_true]

theorem isBranch_of_append {rest : List N} (hRest : rest ≠ [])
    (h : (t.get (p ++ rest)).isSome = true) : t.isBranch p = true := by
  induction rest using List.reverseRecOn with
  | nil => exact absurd rfl hRest
  | append_singleton rest n ih =>
    obtain ⟨v, hv⟩ := Option.isSome_iff_exists.mp h
    rw [← append_assoc] at hv
    obtain ⟨u, hu, hBranch⟩ := t.parent_branch _ _ _ hv
    by_cases hNil : rest = []
    · rw [hNil, append_nil] at hu
      exact isBranch_iff.mpr ⟨u, hu, hBranch⟩
    · exact ih hNil (by rw [hu]; rfl)

theorem get_append_eq_none (h : t.get p = none) (rest : List N) : t.get (p ++ rest) = none := by
  by_cases hRest : rest = []
  · rw [hRest, append_nil, h]
  · cases hg : t.get (p ++ rest) with
    | none => rfl
    | some v =>
      obtain ⟨u, hu, -⟩ := isBranch_iff.mp (isBranch_of_append hRest (by rw [hg]; rfl))
      rw [h] at hu
      cases hu

theorem get_append_of_not_isBranch {rest : List N} (h : t.isBranch p = false) (hRest : rest ≠ []) :
    t.get (p ++ rest) = none := by
  cases hg : t.get (p ++ rest) with
  | none => rfl
  | some v =>
    rw [isBranch_of_append hRest (by rw [hg]; rfl)] at h
    cases h

theorem blocked_iff :
    t.blocked p = true ↔
      ∃ q rest v, p = q ++ rest ∧ rest ≠ [] ∧ t.get q = some v ∧ branch v = false := by
  simp only [blocked, any_eq_true, mem_range, Option.any_eq_true, Bool.not_eq_true']
  constructor
  · rintro ⟨k, hk, v, hv, hb⟩
    refine ⟨p.take k, p.drop k, v, (take_append_drop k p).symm, ?_, hv, hb⟩
    intro hd
    rw [drop_eq_nil_iff] at hd
    omega
  · rintro ⟨q, rest, v, rfl, hRest, hv, hb⟩
    refine ⟨q.length, ?_, v, by rw [take_left]; exact hv, hb⟩
    have := length_pos_iff.mpr hRest
    rw [length_append]
    omega

theorem get_eq_none_of_blocked (h : t.blocked p = true) : t.get p = none := by
  obtain ⟨q, rest, v, rfl, hRest, hv, hb⟩ := blocked_iff.mp h
  refine get_append_of_not_isBranch ?_ hRest
  simp [isBranch, hv, hb]

end Ancestors

/-! ## Height -/

/-- A bound on the length of the occupied paths. -/
def height (t : Tree N V branch) : Nat := t.dom.foldr (fun p h => max p.length h) 0

/-! ## Children -/

variable [DecidableEq N]

/-- The labels of the children of a node. -/
def childNames (t : Tree N V branch) (d : List N) : List N :=
  ((t.dom.filterMap (fun p => (stripPrefix d p).bind (fun rest =>
    match rest with
    | [n] => some n
    | _ => none))).dedup).filter (fun n => (t.get (d ++ [n])).isSome)

variable {t : Tree N V branch}

variable {d src : List N} {n : N}

theorem mem_childNames : n ∈ t.childNames d ↔ (t.get (d ++ [n])).isSome = true := by
  simp only [childNames, mem_filter, mem_dedup, mem_filterMap]
  constructor
  · exact And.right
  · intro h
    refine ⟨?_, h⟩
    obtain ⟨v, hv⟩ := Option.isSome_iff_exists.mp h
    refine ⟨d ++ [n], t.mem_dom _ _ hv, ?_⟩
    rw [stripPrefix_eq_some.mpr rfl]
    rfl

theorem childNames_eq_nil_iff : t.childNames d = [] ↔ ∀ n, t.get (d ++ [n]) = none := by
  rw [eq_nil_iff_forall_not_mem]
  simp only [mem_childNames, Option.not_isSome_iff_eq_none]

/-! ## Updates -/

/-- Add a value at a free path below a branch. -/
def add (t : Tree N V branch) (d : List N) (n : N) (v : V) : Tree N V branch :=
  if h : t.isBranch d = true ∧ t.get (d ++ [n]) = none then
    { get := fun p => if p = d ++ [n] then some v else t.get p
      dom := (d ++ [n]) :: t.dom
      mem_dom := by
        intro p u hp
        split at hp
        · rename_i he
          exact he ▸ mem_cons_self
        · exact mem_cons_of_mem _ (t.mem_dom p u hp)
      root_branch := by
        obtain ⟨u, hu, hb⟩ := t.root_branch
        exact ⟨u, by rw [if_neg (by simp), hu], hb⟩
      parent_branch := by
        intro p m u hp
        have hOld : ∀ q, t.isBranch q = true →
            ∃ u, (if q = d ++ [n] then some v else t.get q) = some u ∧ branch u = true := by
          intro q hq
          obtain ⟨u, hu, hb⟩ := isBranch_iff.mp hq
          refine ⟨u, ?_, hb⟩
          rw [if_neg, hu]
          rintro rfl
          rw [h.2] at hu
          cases hu
        split at hp
        · rename_i he
          obtain ⟨rfl, -⟩ := append_inj' he rfl
          exact hOld p h.1
        · obtain ⟨u', hu', hb'⟩ := t.parent_branch p m u hp
          exact hOld p (isBranch_iff.mpr ⟨u', hu', hb'⟩) }
  else t

theorem get_add {v : V} (hd : t.isBranch d = true) (hn : t.get (d ++ [n]) = none) (p : List N) :
    (t.add d n v).get p = if p = d ++ [n] then some v else t.get p := by
  unfold add
  rw [dif_pos ⟨hd, hn⟩]

/-- Remove a childless node other than the root. -/
def erase (t : Tree N V branch) (p : List N) : Tree N V branch :=
  if h : p ≠ [] ∧ t.childNames p = [] then
    { get := fun q => if q = p then none else t.get q
      dom := t.dom
      mem_dom := by
        intro q u hq
        split at hq
        · cases hq
        · exact t.mem_dom q u hq
      root_branch := by
        obtain ⟨u, hu, hb⟩ := t.root_branch
        exact ⟨u, by rw [if_neg h.1.symm, hu], hb⟩
      parent_branch := by
        intro q n u hq
        split at hq
        · cases hq
        · obtain ⟨u', hu', hb'⟩ := t.parent_branch q n u hq
          refine ⟨u', ?_, hb'⟩
          rw [if_neg, hu']
          rintro rfl
          rw [childNames_eq_nil_iff.mp h.2 n] at hq
          cases hq }
  else t

theorem get_erase {p : List N} (hp : p ≠ []) (hc : t.childNames p = []) (q : List N) :
    (t.erase p).get q = if q = p then none else t.get q := by
  unfold erase
  rw [dif_pos ⟨hp, hc⟩]

/-- What is at a path after the subtree at `src` has become the subtree at `dst`. -/
def moved (t : Tree N V branch) (src dst p : List N) : Option V :=
  match stripPrefix dst p with
  | some rest => t.get (src ++ rest)
  | none => if src <+: p then none else t.get p

theorem moved_append (src dst rest : List N) :
    t.moved src dst (dst ++ rest) = t.get (src ++ rest) := by
  unfold moved
  rw [stripPrefix_eq_some.mpr rfl]

theorem moved_of_not_prefix {dst p : List N} (hDst : ¬ dst <+: p) (hSrc : ¬ src <+: p) :
    t.moved src dst p = t.get p := by
  unfold moved
  split
  · rename_i rest hRest
    exact absurd ⟨rest, (stripPrefix_eq_some.mp hRest).symm⟩ hDst
  · rw [if_neg hSrc]

theorem moved_source {dst : List N} (rest : List N) (hDst : ¬ dst <+: src ++ rest) :
    t.moved src dst (src ++ rest) = none := by
  unfold moved
  split
  · rename_i rest' hRest
    exact absurd ⟨rest', (stripPrefix_eq_some.mp hRest).symm⟩ hDst
  · rw [if_pos (prefix_append src rest)]

/-- Move a subtree to a free path below a branch outside of it. -/
def move (t : Tree N V branch) (src d : List N) (n : N) : Tree N V branch :=
  if h : src ≠ [] ∧ t.isBranch d = true ∧ t.get (d ++ [n]) = none ∧ ¬ src <+: d then
    { get := t.moved src (d ++ [n])
      dom := t.dom ++ t.dom.filterMap (fun p => (stripPrefix src p).map (d ++ [n] ++ ·))
      mem_dom := by
        intro p u hp
        unfold moved at hp
        rw [mem_append]
        split at hp
        · rename_i rest hRest
          refine .inr (mem_filterMap.mpr ⟨src ++ rest, t.mem_dom _ _ hp, ?_⟩)
          rw [stripPrefix_eq_some.mpr rfl, stripPrefix_eq_some.mp hRest]
          rfl
        · split at hp
          · cases hp
          · exact .inl (t.mem_dom p u hp)
      root_branch := by
        obtain ⟨u, hu, hb⟩ := t.root_branch
        refine ⟨u, ?_, hb⟩
        have hs : stripPrefix (d ++ [n]) ([] : List N) = none := by
          simp [stripPrefix]
        simp only [moved, hs, prefix_nil, h.1, if_false]
        exact hu
      parent_branch := by
        intro p m u hp
        have hStay : ∀ q, stripPrefix (d ++ [n]) q = none → ¬ src <+: q →
            t.isBranch q = true → ∃ u, t.moved src (d ++ [n]) q = some u ∧ branch u = true := by
          intro q hs hq hb
          obtain ⟨u, hu, hb⟩ := isBranch_iff.mp hb
          exact ⟨u, by simp only [moved, hs, if_neg hq, hu], hb⟩
        have hNotAbove : stripPrefix (d ++ [n]) d = none := by
          simp only [stripPrefix]
          rw [if_neg]
          intro hpre
          have hLen := hpre.length_le
          rw [length_append, length_singleton] at hLen
          omega
        unfold moved at hp
        split at hp
        · rename_i rest hRest
          have he := stripPrefix_eq_some.mp hRest
          induction rest using List.reverseRecOn with
          | nil =>
            -- the new node itself: its parent is the branch `d`
            rw [append_nil] at he
            obtain ⟨rfl, -⟩ := append_inj' he rfl
            exact hStay p hNotAbove h.2.2.2 h.2.1
          | append_singleton rest k _ =>
            rw [← append_assoc] at he hp
            obtain ⟨rfl, -⟩ := append_inj' he rfl
            obtain ⟨u', hu', hb'⟩ := t.parent_branch _ _ _ hp
            refine ⟨u', ?_, hb'⟩
            simp only [moved, stripPrefix_eq_some.mpr rfl]
            exact hu'
        · rename_i hs
          split at hp
          · cases hp
          · rename_i hsrc
            obtain ⟨u', hu', hb'⟩ := t.parent_branch p m u hp
            refine hStay p ?_ ?_ (isBranch_iff.mpr ⟨u', hu', hb'⟩)
            · cases hs' : stripPrefix (d ++ [n]) p with
              | none => rfl
              | some rest =>
                have he := stripPrefix_eq_some.mp hs'
                rw [he, append_assoc, stripPrefix_eq_some.mpr rfl] at hs
                cases hs
            · intro hpre
              exact hsrc (hpre.trans (prefix_append p [m])) }
  else t

theorem get_move (hSrc : src ≠ []) (hd : t.isBranch d = true) (hn : t.get (d ++ [n]) = none)
    (hOut : ¬ src <+: d) (p : List N) :
    (t.move src d n).get p = t.moved src (d ++ [n]) p := by
  unfold move
  rw [dif_pos ⟨hSrc, hd, hn, hOut⟩]

end Tree

end Lib
