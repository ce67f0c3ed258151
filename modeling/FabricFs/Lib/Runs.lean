import Mathlib.Data.List.Basic
import Mathlib.Order.Monotone.Basic
import Mathlib.Order.WellFounded

/-!
# Runs of a step function

A state machine given by a total step function is run over a list of
operations. A side condition on single steps is read along the run, at the state
each step starts from. An invariant that every such step keeps holds at the end of
every such run, hence in every state reached, since the condition along a run is
inherited by its initial segments. Under an endless schedule a claim on one action that
only this action can settle is settled, if the scheduler is fair to it, and a rank that some
action lowers comes to zero.
-/

namespace Lib.Runs

variable {σ α : Type} (step : α → σ → σ) (C : α → σ → Prop)

/-- The state after the operations, executed from left to right. -/
def run (ops : List α) (s : σ) : σ := ops.foldl (fun s a => step a s) s

/-- Every operation meets the condition at the state it starts from. -/
def Along : List α → σ → Prop
  | [], _ => True
  | a :: ops, s => C a s ∧ Along ops (step a s)

instance decidableAlong [∀ a s, Decidable (C a s)] :
    ∀ (ops : List α) (s : σ), Decidable (Along step C ops s)
  | [], _ => isTrue trivial
  | a :: ops, s =>
    have := decidableAlong ops (step a s)
    inferInstanceAs (Decidable (C a s ∧ Along step C ops (step a s)))

@[simp] theorem run_nil (s : σ) : run step [] s = s := rfl

@[simp] theorem run_cons (a : α) (ops : List α) (s : σ) :
    run step (a :: ops) s = run step ops (step a s) := rfl

theorem run_append (ops rest : List α) (s : σ) :
    run step (ops ++ rest) s = run step rest (run step ops s) := by
  simp [run, List.foldl_append]

variable {step C}

variable {ops : List α} {s : σ}

theorem along_append {rest : List α} :
    Along step C (ops ++ rest) s ↔ Along step C ops s ∧ Along step C rest (run step ops s) := by
  induction ops generalizing s with
  | nil => simp [Along]
  | cons a ops ih => simp [Along, ih, and_assoc]

theorem along_of_forall {D : α → Prop} (h : ∀ a ∈ ops, D a) :
    Along step (fun a _ => D a) ops s := by
  induction ops generalizing s with
  | nil => exact trivial
  | cons a ops ih =>
    exact ⟨h a List.mem_cons_self, ih fun b hb => h b (List.mem_cons_of_mem _ hb)⟩

theorem along_and {D : α → σ → Prop} (hC : Along step C ops s) (hD : Along step D ops s) :
    Along step (fun a s => C a s ∧ D a s) ops s := by
  induction ops generalizing s with
  | nil => exact trivial
  | cons a ops ih => exact ⟨⟨hC.1, hD.1⟩, ih hC.2 hD.2⟩

/-- The invariant rule for runs. -/
theorem run_invariant {I : σ → Prop} (hStep : ∀ a s, I s → C a s → I (step a s)) (hs : I s)
    (hC : Along step C ops s) : I (run step ops s) := by
  induction ops generalizing s with
  | nil => exact hs
  | cons a ops ih => exact ih (hStep a s hs hC.1) hC.2

/-- The simulation rule for runs: two machines that take the same operations. -/
theorem run_related {τ : Type} {step' : α → τ → τ} {R : σ → τ → Prop} {D : α → Prop}
    (hStep : ∀ a s t, D a → R s t → R (step a s) (step' a t)) {t : τ} (hD : ∀ a ∈ ops, D a)
    (hR : R s t) : R (run step ops s) (run step' ops t) := by
  induction ops generalizing s t with
  | nil => exact hR
  | cons a ops ih =>
    exact ih (fun b hb => hD b (List.mem_cons_of_mem _ hb))
      (hStep a s t (hD a List.mem_cons_self) hR)

/-! ## Endless runs -/

/-- The state after the first `n` operations of a schedule. -/
def trajectory (step : α → σ → σ) (schedule : Nat → α) (s : σ) : Nat → σ
  | 0 => s
  | n + 1 => step (schedule n) (trajectory step schedule s n)

theorem trajectory_invariant {I : σ → Prop} (hStep : ∀ a s, I s → I (step a s)) {schedule : Nat → α}
    (hs : I s) (n : Nat) : I (trajectory step schedule s n) := by
  induction n with
  | zero => exact hs
  | succ n ih => exact hStep _ _ ih

/-- Weak fairness: an action that is wanted without end from some time on is taken. -/
def FairTo (step : α → σ → σ) (schedule : Nat → α) (s : σ) (wanted : σ → Prop) (a : α) : Prop :=
  ∀ n, (∀ m ≥ n, wanted (trajectory step schedule s m)) → ∃ m ≥ n, schedule m = a

/-- What only one action can settle is still wanted when that action is taken. -/
theorem taken_of_fairTo {wanted : σ → Prop} {a : α} {schedule : Nat → α}
    (hFair : FairTo step schedule s wanted a) (hKeep : ∀ b t, b ≠ a → wanted t → wanted (step b t))
    {n : Nat} (hWanted : wanted (trajectory step schedule s n)) :
    ∃ m ≥ n, schedule m = a ∧ wanted (trajectory step schedule s m) := by
  by_contra hNever
  have hForever : ∀ k, wanted (trajectory step schedule s (n + k)) := by
    intro k
    induction k with
    | zero => exact hWanted
    | succ k ih =>
      refine hKeep _ _ (fun hTaken => hNever ?_) ih
      exact ⟨n + k, Nat.le_add_right n k, hTaken, ih⟩
  have hLater : ∀ m ≥ n, wanted (trajectory step schedule s m) := by
    intro m hm
    obtain ⟨k, rfl⟩ := Nat.exists_eq_add_of_le hm
    exact hForever k
  obtain ⟨m, hm, hTaken⟩ := hFair n hLater
  exact hNever ⟨m, hm, hTaken, hLater m hm⟩

/-- A state that the rest of the schedule leaves as it is stays. -/
theorem trajectory_stuck {schedule : Nat → α} {n : Nat}
    (hStuck : ∀ m ≥ n, step (schedule m) (trajectory step schedule s n) =
      trajectory step schedule s n) {m : Nat} (hm : n ≤ m) :
    trajectory step schedule s m = trajectory step schedule s n := by
  induction hm with
  | refl => rfl
  | step hm ih => rw [trajectory, ih, hStuck _ hm]

/-- The rank rule: no step raises the rank, and at each rank some action that lowers it is
taken again and again. -/
theorem exists_rank_zero {rank : Nat → Nat} {helps : Nat → α → Prop} {schedule : Nat → α}
    (hFair : ∀ k n, ∃ m ≥ n, helps k (schedule m)) (hLe : ∀ n, rank (n + 1) ≤ rank n)
    (hLt : ∀ n, helps (rank n) (schedule n) → rank n ≠ 0 → rank (n + 1) < rank n) :
    ∃ n, rank n = 0 := by
  have hLeast : ∀ m, rank (Function.argmin rank) ≤ rank m := fun m =>
    not_lt.1 (Function.not_lt_argmin rank m)
  obtain ⟨m, hm, hHelps⟩ := hFair (rank (Function.argmin rank)) (Function.argmin rank)
  have hSame : rank m = rank (Function.argmin rank) :=
    le_antisymm (antitone_nat_of_succ_le hLe hm) (hLeast m)
  by_contra hNever
  refine absurd (hLeast (m + 1)) (not_le.2 ?_)
  rw [← hSame] at hHelps ⊢
  exact hLt m hHelps fun hZero => hNever ⟨m, hZero⟩

end Lib.Runs
