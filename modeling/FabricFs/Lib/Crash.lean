import FabricFs.Lib.Prog

/-!
# Delayed changes and crashes

A value on a disk changes at once for those who read it, and a crash may still undo the
latest changes that were not synced. A program over such values fails or is cut short by a
crash.

* `Delayed.All P d`: `P` holds of every value that a crash may leave, the present one
  included. The rules `All.change`, `All.sync` and `All.crash` follow the operations.
* `Spec`: pre- and postconditions with one outcome each for success, failure and crash.
-/

namespace Lib

/-- The value that is synced, and the values after each later change. -/
structure Delayed (α : Type) where
  settled : α
  later : List α

namespace Delayed

variable {α : Type} {P Q : α → Prop} {d : Delayed α}

def current (d : Delayed α) : α := d.later.getLast?.getD d.settled

def change (f : α → α) (d : Delayed α) : Delayed α := ⟨d.settled, d.later ++ [f d.current]⟩

def sync (d : Delayed α) : Delayed α := ⟨d.current, []⟩

/-- The first `n` changes survive. -/
def crash (n : Nat) (d : Delayed α) : Delayed α :=
  ⟨((d.settled :: d.later)[n]?).getD d.current, []⟩

/-- What a crash may leave. -/
def All (P : α → Prop) (d : Delayed α) : Prop := ∀ a ∈ d.settled :: d.later, P a

@[simp] theorem current_change (f : α → α) : (d.change f).current = f d.current := by
  simp [current, change]

theorem current_mem (d : Delayed α) : d.current ∈ d.settled :: d.later := by
  unfold current
  cases h : d.later.getLast? with
  | none => exact List.mem_cons_self
  | some a => exact List.mem_cons_of_mem _ (List.mem_of_getLast? h)

theorem All.current (h : d.All P) : P d.current := h _ d.current_mem

theorem All.mono (h : d.All P) (hPQ : ∀ a, P a → Q a) : d.All Q := fun a ha => hPQ a (h a ha)

theorem mem_change {f : α → α} {a : α} (h : a ∈ (d.change f).settled :: (d.change f).later) :
    a ∈ d.settled :: d.later ∨ a = f d.current := by
  simpa [change, or_assoc] using h

theorem All.change {f : α → α} (h : d.All P) (hf : P (f d.current)) : (d.change f).All P := by
  intro a ha
  rcases mem_change ha with ha | rfl
  · exact h a ha
  · exact hf

theorem All.sync_of (h : P d.current) : d.sync.All P := by
  intro a ha
  obtain rfl : a = d.current := by simpa [Delayed.sync] using ha
  exact h

theorem crash_mem (n : Nat) (d : Delayed α) : (d.crash n).settled ∈ d.settled :: d.later := by
  unfold crash
  cases h : (d.settled :: d.later)[n]? with
  | none => exact d.current_mem
  | some a => exact List.mem_of_getElem? h

theorem mem_crash {n : Nat} {a : α} (h : a ∈ (d.crash n).settled :: (d.crash n).later) :
    a = (d.crash n).settled := by
  simpa [crash] using h

/-- Every value that a crash may leave in the second has its match in the first. -/
def Covers {β : Type} (f : α → β) (d d' : Delayed α) : Prop :=
  ∀ a' ∈ d'.settled :: d'.later, ∃ a ∈ d.settled :: d.later, f a' = f a

section Covers

variable {β : Type} {f : α → β} {d' : Delayed α}

theorem covers_refl (f : α → β) (d : Delayed α) : Covers f d d := fun a ha => ⟨a, ha, rfl⟩

theorem covers_change {g : α → α} (h : f (g d.current) = f d.current) :
    Covers f d (d.change g) := by
  intro a ha
  rcases mem_change ha with ha | rfl
  · exact ⟨a, ha, rfl⟩
  · exact ⟨d.current, d.current_mem, h⟩

theorem covers_sync (f : α → β) (d : Delayed α) : Covers f d d.sync := by
  intro a ha
  obtain rfl : a = d.current := by simpa [Delayed.sync] using ha
  exact ⟨d.current, d.current_mem, rfl⟩

theorem covers_crash (f : α → β) (d : Delayed α) (n : Nat) : Covers f d (d.crash n) := by
  intro a ha
  rw [mem_crash ha]
  exact ⟨_, crash_mem n d, rfl⟩

theorem All.covers (h : d.All P) (hCover : Covers f d d')
    (hP : ∀ a a', f a' = f a → P a → P a') : d'.All P := by
  intro a' ha'
  obtain ⟨a, ha, hEq⟩ := hCover a' ha'
  exact hP a a' hEq (h a ha)

end Covers

end Delayed

/-! ## Programs that a crash may cut short -/

inductive Stop (ε : Type) where
  | fail (e : ε)
  | crash
  deriving DecidableEq

namespace Prog

variable {ρ σ ε α β : Type}

def fail (e : ε) : Prog ρ σ (Stop ε) α := throw (.fail e)

/-- The result of a program as a value. A crash goes through. -/
def attempt (x : Prog ρ σ (Stop ε) α) : Prog ρ σ (Stop ε) (Except ε α) := fun r s =>
  match x r s with
  | (.ok a, s') => (.ok (.ok a), s')
  | (.error (.fail e), s') => (.ok (.error e), s')
  | (.error .crash, s') => (.error .crash, s')

/-- From a state with `P` the program ends with `Q`, fails with `F`, or crashes with `C`. -/
def Spec (r : ρ) (C P : σ → Prop) (x : Prog ρ σ (Stop ε) α) (Q : α → σ → Prop) (F : σ → Prop) :
    Prop :=
  ∀ s, P s →
    match x r s with
    | (.ok a, s') => Q a s'
    | (.error (.fail _), s') => F s'
    | (.error .crash, s') => C s'

variable {r : ρ} {C P P' F G : σ → Prop} {Q Q' : α → σ → Prop} {R : β → σ → Prop}

variable {x : Prog ρ σ (Stop ε) α}

theorem spec_pure {a : α} (h : ∀ s, P s → Q a s) :
    Spec r C P (pure a : Prog ρ σ (Stop ε) α) Q F := h

theorem spec_fail {e : ε} (h : ∀ s, P s → F s) : Spec r C P (fail e : Prog ρ σ (Stop ε) α) Q F := h

theorem spec_bind {f : α → Prog ρ σ (Stop ε) β} (hx : Spec r C P x Q F)
    (hf : ∀ a, Spec r C (Q a) (f a) R F) :
    Spec r C P (x >>= f) R F := by
  intro s hs
  have hRun := hx s hs
  rw [bind_run]
  rcases hr : x r s with ⟨(e | _) | a, s'⟩
  · rw [hr] at hRun
    exact hRun
  · rw [hr] at hRun
    exact hRun
  · rw [hr] at hRun
    exact hf a s' hRun

theorem spec_seq {f : α → Prog ρ σ (Stop ε) β} (hx : Spec r C P x Q F)
    (hf : ∀ {a}, Spec r C (Q a) (f a) R F) : Spec r C P (x >>= f) R F := spec_bind hx fun _ => hf

theorem spec_then {x : Prog ρ σ (Stop ε) Unit} {f : Unit → Prog ρ σ (Stop ε) β} {Q : σ → Prop}
    (hx : Spec r C P x (fun _ => Q) F) (hf : Spec r C Q (f ()) R F) : Spec r C P (x >>= f) R F :=
  spec_bind hx fun _ => hf

theorem spec_conseq (h : Spec r C P x Q F) (hP : ∀ s, P' s → P s) (hQ : ∀ a s, Q a s → Q' a s)
    (hF : ∀ s, F s → G s) : Spec r C P' x Q' G := by
  intro s hs
  have hRun := h s (hP s hs)
  rcases hr : x r s with ⟨(e | _) | a, s'⟩
  · rw [hr] at hRun
    exact hF s' hRun
  · rw [hr] at hRun
    exact hRun
  · rw [hr] at hRun
    exact hQ a s' hRun

theorem spec_attempt (h : Spec r C P x Q F) :
    Spec r C P (attempt x) (fun res s =>
      match res with
      | .ok a => Q a s
      | .error _ => F s) G := by
  intro s hs
  have hRun := h s hs
  unfold attempt
  rcases hr : x r s with ⟨(e | _) | a, s'⟩
  · rw [hr] at hRun
    exact hRun
  · rw [hr] at hRun
    exact hRun
  · rw [hr] at hRun
    exact hRun

theorem spec_ite {c : Prop} [Decidable c] {y : Prog ρ σ (Stop ε) α} (hx : c → Spec r C P x Q F)
    (hy : ¬ c → Spec r C P y Q F) :
    Spec r C P (if c then x else y) Q F := by
  split
  · exact hx ‹c›
  · exact hy ‹¬ c›

/-- A fact that does not depend on the state moves into the context. -/
theorem spec_fact {φ : Prop} (h : φ → Spec r C P x Q F) :
    Spec r C (fun s => φ ∧ P s) x Q F := fun s hs => h hs.1 s hs.2

theorem spec_exists {ι : Type} {G : ι → σ → Prop} (h : ∀ i, Spec r C (G i) x Q F) :
    Spec r C (fun s => ∃ i, G i s) x Q F :=
  fun s ⟨i, hi⟩ => h i s hi

end Prog

end Lib
