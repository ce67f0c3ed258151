import Mathlib.Data.List.Basic

/-!
# Programs with state and failure

A program reads an environment and a state and returns a value or fails; the state
changes it made stay in both cases, as they do in code that returns early on an error.

* `bind_ok`: what a run of a sequence went through.
* `Triple r P x Q E`: from a state with `P` the program ends with `Q` or fails with `E`;
  `Keeps r I x`: it keeps `I` in both cases. The rules follow the constructs of a program:
  `triple_bind`, `triple_tryCatch`, `keeps_bind`, `keeps_onlyIf`, `keeps_each` and so on.
-/

namespace Lib

/-- A program over the environment `ρ` and the state `σ` that may fail with an `ε`. -/
def Prog (ρ σ ε α : Type) : Type := ρ → σ → Except ε α × σ

namespace Prog

variable {ρ σ ε α β : Type}

instance : Monad (Prog ρ σ ε) where
  pure a := fun _ s => (.ok a, s)
  bind x f := fun r s =>
    match x r s with
    | (.ok a, s') => f a r s'
    | (.error e, s') => (.error e, s')

instance : MonadExceptOf ε (Prog ρ σ ε) where
  throw e := fun _ s => (.error e, s)
  tryCatch x h := fun r s =>
    match x r s with
    | (.ok a, s') => (.ok a, s')
    | (.error e, s') => h e r s'

/-- The environment. -/
def ask : Prog ρ σ ε ρ := fun r s => (.ok r, s)

/-- A part of the state. -/
def state (f : σ → α) : Prog ρ σ ε α := fun _ s => (.ok (f s), s)

def change (f : σ → σ) : Prog ρ σ ε Unit := fun _ s => (.ok (), f s)

/-- Fail unless the condition holds. -/
def ensure (c : Bool) (e : ε) : Prog ρ σ ε Unit := if c then pure () else throw e

/-- Run the program only if the condition holds. -/
def onlyIf (c : Bool) (x : Prog ρ σ ε Unit) : Prog ρ σ ε Unit := if c then x else pure ()

/-- Run the program on the value, if there is one. -/
def ifSome (o : Option α) (f : α → Prog ρ σ ε Unit) : Prog ρ σ ε Unit :=
  match o with
  | some a => f a
  | none => pure ()

/-- A result computed elsewhere. -/
def result (x : Except ε α) : Prog ρ σ ε α := fun _ s => (x, s)

/-- Every program of the list in turn. -/
def each (f : α → Prog ρ σ ε Unit) : List α → Prog ρ σ ε Unit
  | [] => pure ()
  | a :: as => f a >>= fun _ => each f as

variable {r : ρ} {s s' s'' : σ}

variable {x : Prog ρ σ ε α} {f : α → Prog ρ σ ε β}

@[simp] theorem pure_run (a : α) : (pure a : Prog ρ σ ε α) r s = (.ok a, s) := rfl

@[simp] theorem throw_run (e : ε) : (throw e : Prog ρ σ ε α) r s = (.error e, s) := rfl

@[simp] theorem ask_run : (ask : Prog ρ σ ε ρ) r s = (.ok r, s) := rfl

@[simp] theorem state_run (f : σ → α) : (state f : Prog ρ σ ε α) r s = (.ok (f s), s) := rfl

@[simp] theorem change_run (f : σ → σ) : (change f : Prog ρ σ ε Unit) r s = (.ok (), f s) := rfl

@[simp] theorem result_run (x : Except ε α) : (result x : Prog ρ σ ε α) r s = (x, s) := rfl

theorem bind_run (x : Prog ρ σ ε α) (f : α → Prog ρ σ ε β) :
    (x >>= f) r s = match x r s with
      | (.ok a, s') => f a r s'
      | (.error e, s') => (.error e, s') := rfl

theorem tryCatch_run (x : Prog ρ σ ε α) (h : ε → Prog ρ σ ε α) :
    (tryCatch x h) r s = match x r s with
      | (.ok a, s') => (.ok a, s')
      | (.error e, s') => h e r s' := rfl

@[simp] theorem pure_bind_run (a : α) (f : α → Prog ρ σ ε β) :
    ((pure a : Prog ρ σ ε α) >>= f) r s = f a r s := rfl

@[simp] theorem ask_bind_run (f : ρ → Prog ρ σ ε β) :
    ((ask : Prog ρ σ ε ρ) >>= f) r s = f r r s := rfl

@[simp] theorem state_bind_run (g : σ → α) (f : α → Prog ρ σ ε β) :
    ((state g : Prog ρ σ ε α) >>= f) r s = f (g s) r s := rfl

@[simp] theorem change_bind_run (g : σ → σ) (f : Unit → Prog ρ σ ε β) :
    ((change g : Prog ρ σ ε Unit) >>= f) r s = f () r (g s) := rfl

@[simp] theorem throw_bind_run (e : ε) (f : α → Prog ρ σ ε β) :
    ((throw e : Prog ρ σ ε α) >>= f) r s = (.error e, s) := rfl

/-! ## What a run went through -/

theorem bind_ok {b : β} (h : (x >>= f) r s = (.ok b, s'')) :
    ∃ a s', x r s = (.ok a, s') ∧ f a r s' = (.ok b, s'') := by
  rw [bind_run] at h
  rcases hx : x r s with ⟨_ | a, s'⟩
  · rw [hx] at h
    cases h
  · rw [hx] at h
    exact ⟨a, s', rfl, h⟩

theorem bind_run_ok {a : α} (h : x r s = (.ok a, s')) : (x >>= f) r s = f a r s' := by
  rw [bind_run, h]

theorem bind_run_error {e : ε} (h : x r s = (.error e, s')) : (x >>= f) r s = (.error e, s') := by
  rw [bind_run, h]

/-- Two sequences with the same start agree if they agree after every success of it. -/
theorem bind_congr_run {g : α → Prog ρ σ ε β}
    (h : ∀ a s', x r s = (.ok a, s') → f a r s' = g a r s') : (x >>= f) r s = (x >>= g) r s := by
  rw [bind_run, bind_run]
  rcases hx : x r s with ⟨e | a, s'⟩
  · rfl
  · exact h a s' hx

theorem map_eq_ok {x : Except ε α} {f : α → β} {b : β} :
    x.map f = .ok b ↔ ∃ a, x = .ok a ∧ f a = b := by
  cases x with
  | error e => simp [Except.map]
  | ok a => simp [Except.map]

theorem ensure_ok {c : Bool} {e : ε} {a : Unit}
    (h : (ensure c e : Prog ρ σ ε Unit) r s = (.ok a, s')) : c = true ∧ s' = s := by
  unfold ensure at h
  split at h
  · rename_i hc
    cases h
    exact ⟨hc, rfl⟩
  · cases h

/-! ## Pre- and postconditions -/

/-- From a state with `P` the program ends with `Q`, or fails in a state with `E`. -/
def Triple (r : ρ) (P : σ → Prop) (x : Prog ρ σ ε α) (Q : α → σ → Prop) (E : σ → Prop) : Prop :=
  ∀ s, P s →
    match x r s with
    | (.ok a, s') => Q a s'
    | (.error _, s') => E s'

/-- The program keeps `I`, whether or not it fails. -/
def Keeps (r : ρ) (I : σ → Prop) (x : Prog ρ σ ε α) : Prop := Triple r I x (fun _ => I) I

section Rules

variable {P P' I E E' : σ → Prop} {Q Q' : α → σ → Prop} {R : β → σ → Prop}

variable {x : Prog ρ σ ε α} {f : α → Prog ρ σ ε β}

theorem triple_pure {a : α} (h : ∀ s, P s → Q a s) : Triple r P (pure a : Prog ρ σ ε α) Q E := h

theorem triple_throw {e : ε} (h : ∀ s, P s → E s) : Triple r P (throw e : Prog ρ σ ε α) Q E := h

theorem triple_done {a : α} : Triple r P (pure a : Prog ρ σ ε α) (fun _ => P) E := fun _ hs => hs

theorem triple_thrown {e : ε} : Triple r E (throw e : Prog ρ σ ε α) Q E := fun _ hs => hs

theorem triple_bind (hx : Triple r P x Q E) (hf : ∀ a, Triple r (Q a) (f a) R E) :
    Triple r P (x >>= f) R E := by
  intro s hs
  have hRun := hx s hs
  rw [bind_run]
  rcases hr : x r s with ⟨e | a, s'⟩
  · rw [hr] at hRun
    exact hRun
  · rw [hr] at hRun
    exact hf a s' hRun

theorem triple_seq (hx : Triple r P x Q E) (hf : ∀ {a}, Triple r (Q a) (f a) R E) :
    Triple r P (x >>= f) R E := triple_bind hx fun _ => hf

theorem triple_then {x : Prog ρ σ ε Unit} {f : Unit → Prog ρ σ ε β} {Q : σ → Prop}
    (hx : Triple r P x (fun _ => Q) E) (hf : Triple r Q (f ()) R E) : Triple r P (x >>= f) R E :=
  triple_bind hx fun _ => hf

theorem triple_conseq (h : Triple r P x Q E) (hP : ∀ s, P' s → P s) (hQ : ∀ a s, Q a s → Q' a s)
    (hE : ∀ s, E s → E' s) : Triple r P' x Q' E' := by
  intro s hs
  have hRun := h s (hP s hs)
  rcases hr : x r s with ⟨e | a, s'⟩
  · rw [hr] at hRun
    exact hE s' hRun
  · rw [hr] at hRun
    exact hQ a s' hRun

theorem triple_imp (h : Triple r P x Q E) (hQ : ∀ a s, Q a s → Q' a s) (hE : ∀ s, E s → E' s) :
    Triple r P x Q' E' := triple_conseq h (fun _ hs => hs) hQ hE

theorem Triple.pre {x : Prog ρ σ ε α} (h : Triple r P x Q E) (hP : ∀ s, P' s → P s) :
    Triple r P' x Q E :=
  triple_conseq h hP (fun _ _ hs => hs) (fun _ hs => hs)

theorem Triple.post {x : Prog ρ σ ε α} (h : Triple r P x Q E) (hQ : ∀ a s, Q a s → Q' a s) :
    Triple r P x Q' E :=
  triple_conseq h (fun _ hs => hs) hQ (fun _ hs => hs)

theorem Triple.weaken {x : Prog ρ σ ε α} (h : Triple r P x Q E) (hE : ∀ s, E s → E' s) :
    Triple r P x Q E' :=
  triple_conseq h (fun _ hs => hs) (fun _ _ hs => hs) hE

theorem Triple.any {x : Prog ρ σ ε α} (h : Triple r P x Q E) : Triple r P x Q (fun _ => True) :=
  h.weaken fun _ _ => trivial

/-- A fact that does not depend on the state moves into the context. -/
theorem triple_fact {φ : Prop} (h : φ → Triple r P x Q E) :
    Triple r (fun s => P s ∧ φ) x Q E := fun s hs => h hs.2 s hs.1

/-- A fact about the result is known from then on. -/
theorem triple_learn {P' : α → σ → Prop} {φ : α → Prop}
    (hx : Triple r P x (fun a s => P' a s ∧ φ a) E) (hf : ∀ a, φ a → Triple r (P' a) (f a) R E) :
    Triple r P (x >>= f) R E := triple_bind hx fun a => triple_fact (hf a)

theorem triple_ite {c : Prop} [Decidable c] {y : Prog ρ σ ε α} (hx : c → Triple r P x Q E)
    (hy : ¬ c → Triple r P y Q E) : Triple r P (if c then x else y) Q E := by
  split
  · exact hx ‹c›
  · exact hy ‹¬ c›

theorem triple_if {c : Prop} [Decidable c] {y : Prog ρ σ ε α} (hx : Triple r P x Q E)
    (hy : Triple r P y Q E) : Triple r P (if c then x else y) Q E :=
  triple_ite (fun _ => hx) fun _ => hy

theorem triple_ensure {c : Bool} {e : ε} (h : ∀ s, P s → E s) :
    Triple r P (ensure c e : Prog ρ σ ε Unit) (fun _ s => P s ∧ c = true) E := by
  unfold ensure
  split
  · rename_i hc
    exact triple_pure (fun s hs => ⟨hs, hc⟩)
  · exact triple_throw h

theorem triple_result {x : Except ε α} (h : ∀ s, P s → E s) :
    Triple r P (result x : Prog ρ σ ε α) (fun a s => P s ∧ x = .ok a) E := by
  intro s hs
  cases x with
  | error e => exact h s hs
  | ok a => exact ⟨hs, rfl⟩

theorem triple_ask {f : ρ → Prog ρ σ ε β} (h : Triple r P (f r) R E) :
    Triple r P (ask >>= f) R E := h

theorem triple_state {g : σ → α} :
    Triple r P (state g : Prog ρ σ ε α) (fun a s => P s ∧ a = g s) E :=
  fun _ hs => ⟨hs, rfl⟩

theorem triple_tryCatch {h : ε → Prog ρ σ ε α} {M : σ → Prop} (hx : Triple r P x Q M)
    (hh : ∀ e, Triple r M (h e) Q E) :
    Triple r P (tryCatch x h) Q E := by
  intro s hs
  have hRun := hx s hs
  rw [tryCatch_run]
  rcases hr : x r s with ⟨e | a, s'⟩
  · rw [hr] at hRun
    exact hh e s' hRun
  · rw [hr] at hRun
    exact hRun

/-- A postcondition that does not depend on the outcome holds in the state reached. -/
theorem Triple.after {J : σ → Prop} (h : Triple r P x (fun _ => J) J) (hs : P s) : J (x r s).2 := by
  have hRun := h s hs
  revert hRun
  rcases x r s with ⟨e | a, s'⟩
  · exact id
  · exact id

theorem Triple.of_ok (h : Triple r P x Q E) (hs : P s) {a : α} (hOk : (x r s).1 = .ok a) :
    Q a (x r s).2 := by
  have hRun := h s hs
  revert hRun hOk
  rcases x r s with ⟨e | b, s'⟩ <;> intro hOk hRun
  · cases hOk
  · cases hOk
    exact hRun

theorem keeps_iff : Keeps r I x ↔ ∀ s, I s → I (x r s).2 := by
  refine forall_congr' fun s => imp_congr_right fun _ => ?_
  rcases x r s with ⟨e | a, s'⟩ <;> rfl

/-- An invariant with a part that matters only while the program goes on. -/
theorem Keeps.weaken (h : Keeps r I x) (hE : ∀ s, I s → E s) :
    Triple r I x (fun _ => I) E := Triple.weaken h hE

theorem keeps_and {J : σ → Prop} (hI : Keeps r I x) (hJ : Keeps r J x) :
    Keeps r (fun s => I s ∧ J s) x := by
  rw [keeps_iff] at hI hJ ⊢
  exact fun s hs => ⟨hI s hs.1, hJ s hs.2⟩

theorem keeps_pure (a : α) : Keeps r I (pure a : Prog ρ σ ε α) := fun _ hs => hs

theorem keeps_throw (e : ε) : Keeps r I (throw e : Prog ρ σ ε α) := fun _ hs => hs

theorem keeps_ask : Keeps r I (ask : Prog ρ σ ε ρ) := fun _ hs => hs

theorem keeps_state (g : σ → α) : Keeps r I (state g : Prog ρ σ ε α) := fun _ hs => hs

theorem keeps_result (x : Except ε α) : Keeps r I (result x : Prog ρ σ ε α) := by
  intro s hs
  cases x <;> exact hs

theorem keeps_change {g : σ → σ} (h : ∀ s, I s → I (g s)) :
    Keeps r I (change g : Prog ρ σ ε Unit) := h

theorem keeps_bind (hx : Keeps r I x) (hf : ∀ a, Keeps r I (f a)) :
    Keeps r I (x >>= f) := triple_bind hx hf

/-- Whatever the result is, what follows keeps the invariant. -/
theorem keeps_seq (hx : Keeps r I x) (hf : ∀ {a}, Keeps r I (f a)) : Keeps r I (x >>= f) :=
  keeps_bind hx fun _ => hf

theorem keeps_then {x : Prog ρ σ ε Unit} {f : Unit → Prog ρ σ ε β} (hx : Keeps r I x)
    (hf : Keeps r I (f ())) : Keeps r I (x >>= f) := triple_then hx hf

theorem keeps_four {x : Prog ρ σ ε Unit} {y : Prog ρ σ ε β} (hx : Keeps r I x) (hy : Keeps r I y) :
    Keeps r I (do x; x; x; x; y) :=
  keeps_then hx <| keeps_then hx <| keeps_then hx <| keeps_then hx hy

theorem keeps_map {g : α → β} (hx : Keeps r I x) : Keeps r I (x >>= fun a => pure (g a)) :=
  keeps_seq hx (keeps_pure _)

theorem keeps_ite {c : Prop} [Decidable c] {y : Prog ρ σ ε α} (hx : c → Keeps r I x)
    (hy : ¬ c → Keeps r I y) : Keeps r I (if c then x else y) := triple_ite hx hy

theorem keeps_if {c : Prop} [Decidable c] {y : Prog ρ σ ε α} (hx : Keeps r I x)
    (hy : Keeps r I y) : Keeps r I (if c then x else y) := triple_if hx hy

theorem keeps_ensure (c : Bool) (e : ε) : Keeps r I (ensure c e : Prog ρ σ ε Unit) :=
  keeps_ite (fun _ => keeps_pure ()) (fun _ => keeps_throw e)

theorem keeps_ensured {c : Bool} {e : ε} {f : Unit → Prog ρ σ ε β} (h : Keeps r I (f ())) :
    Keeps r I (ensure c e >>= f) := keeps_bind (keeps_ensure c e) fun _ => h

theorem keeps_onlyIf {c : Bool} {x : Prog ρ σ ε Unit} (hx : c = true → Keeps r I x) :
    Keeps r I (onlyIf c x) := keeps_ite hx (fun _ => keeps_pure ())

theorem keeps_ifSome {o : Option α} {f : α → Prog ρ σ ε Unit}
    (hf : ∀ a, o = some a → Keeps r I (f a)) : Keeps r I (ifSome o f) := by
  unfold ifSome
  split
  · exact hf _ rfl
  · exact keeps_pure ()

theorem keeps_tryCatch {h : ε → Prog ρ σ ε α} (hx : Keeps r I x) (hh : ∀ e, Keeps r I (h e)) :
    Keeps r I (tryCatch x h) := triple_tryCatch hx hh

theorem keeps_each {f : α → Prog ρ σ ε Unit} {as : List α} (h : ∀ a ∈ as, Keeps r I (f a)) :
    Keeps r I (each f as) := by
  induction as with
  | nil => exact keeps_pure ()
  | cons a as ih =>
    refine keeps_bind (h a List.mem_cons_self) ?_
    intro _
    exact ih (fun b hb => h b (List.mem_cons_of_mem _ hb))

/-- What is proved of a sequence does not depend on how it is grouped. -/
theorem triple_assoc {γ : Type} {g : β → Prog ρ σ ε γ} {R : γ → σ → Prop}
    (h : Triple r P ((x >>= f) >>= g) R E) :
    Triple r P (x >>= fun a => f a >>= g) R E := by
  intro s hs
  have hRun := h s hs
  rw [bind_run, bind_run] at hRun
  rw [bind_run]
  rcases hx : x r s with ⟨e | a, s'⟩
  · simpa only [hx] using hRun
  · simpa only [hx, bind_run] using hRun

/-- What every program of a list establishes, if it does not depend on the state. -/
theorem triple_each {f : α → Prog ρ σ ε Unit} {φ : α → Prop}
    (h : ∀ a, Triple r I (f a) (fun _ s => I s ∧ φ a) E) (as : List α) :
    Triple r I (each f as) (fun _ s => I s ∧ ∀ a ∈ as, φ a) E := by
  induction as with
  | nil => exact triple_pure fun s hs => ⟨hs, fun a ha => absurd ha List.not_mem_nil⟩
  | cons a as ih =>
    refine triple_bind (h a) fun _ => triple_fact fun ha => ?_
    refine Triple.post ih ?_
    rintro - s ⟨hs, hAs⟩
    exact ⟨hs, List.forall_mem_cons.mpr ⟨ha, hAs⟩⟩

end Rules

/-! ## Results that do not depend on the state -/

/-- From every state with `I` the program has the given result, and `I` holds after it. -/
def Reports (r : ρ) (I : σ → Prop) (x : Prog ρ σ ε α) (res : Except ε α) : Prop :=
  ∀ s, I s → (x r s).1 = res ∧ I (x r s).2

/-- The program has the same result from all states with `I`. -/
def Determined (r : ρ) (I : σ → Prop) (x : Prog ρ σ ε α) : Prop := ∃ res, Reports r I x res

section Reports

variable {I : σ → Prop}

variable {x : Prog ρ σ ε α}

theorem reports_of_triple {a : α} (h : Triple r I x (fun b s => I s ∧ b = a) (fun _ => False)) :
    Reports r I x (.ok a) := by
  intro s hs
  have hRun := h s hs
  rcases hr : x r s with ⟨e | b, s'⟩
  · rw [hr] at hRun
    exact hRun.elim
  · rw [hr] at hRun
    exact ⟨congrArg _ hRun.2, hRun.1⟩

theorem reports_pure (a : α) : Reports r I (pure a : Prog ρ σ ε α) (.ok a) := fun _ hs => ⟨rfl, hs⟩

theorem reports_throw (e : ε) : Reports r I (throw e : Prog ρ σ ε α) (.error e) :=
  fun _ hs => ⟨rfl, hs⟩

theorem reports_bind {f : α → Prog ρ σ ε β} {a : α} {res : Except ε β} (hx : Reports r I x (.ok a))
    (hf : Reports r I (f a) res) : Reports r I (x >>= f) res := by
  intro s hs
  obtain ⟨hRes, hState⟩ := hx s hs
  rw [bind_run_ok (Prod.ext hRes rfl)]
  exact hf _ hState

theorem reports_bind_error {e : ε} (hx : Reports r I x (.error e)) (f : α → Prog ρ σ ε β) :
    Reports r I (x >>= f) (.error e) := by
  intro s hs
  obtain ⟨hRes, hState⟩ := hx s hs
  rw [bind_run_error (Prod.ext hRes rfl)]
  exact ⟨rfl, hState⟩

theorem determined_pure (a : α) : Determined r I (pure a : Prog ρ σ ε α) := ⟨_, reports_pure a⟩

theorem determined_throw (e : ε) : Determined r I (throw e : Prog ρ σ ε α) := ⟨_, reports_throw e⟩

theorem determined_ask {f : ρ → Prog ρ σ ε β} (h : Determined r I (f r)) :
    Determined r I (ask >>= f) := h

theorem determined_bind {f : α → Prog ρ σ ε β} (hx : Determined r I x)
    (hf : ∀ a, Determined r I (f a)) : Determined r I (x >>= f) := by
  obtain ⟨res, hx⟩ := hx
  cases res with
  | error e => exact ⟨_, reports_bind_error hx f⟩
  | ok a =>
    obtain ⟨res, hf⟩ := hf a
    exact ⟨res, reports_bind hx hf⟩

theorem determined_ite {c : Prop} [Decidable c] {y : Prog ρ σ ε α} (hx : Determined r I x)
    (hy : Determined r I y) : Determined r I (if c then x else y) := by
  split
  · exact hx
  · exact hy

theorem determined_ensure (c : Bool) (e : ε) : Determined r I (ensure c e : Prog ρ σ ε Unit) :=
  determined_ite (determined_pure ()) (determined_throw e)

theorem determined_tryCatch {h : ε → Prog ρ σ ε α} (hx : Determined r I x)
    (hh : ∀ e, Determined r I (h e)) : Determined r I (tryCatch x h) := by
  obtain ⟨res, hx⟩ := hx
  cases res with
  | ok a =>
    refine ⟨.ok a, fun s hs => ?_⟩
    obtain ⟨hRes, hState⟩ := hx s hs
    rw [tryCatch_run, show x r s = (.ok a, (x r s).2) from Prod.ext hRes rfl]
    exact ⟨rfl, hState⟩
  | error e =>
    obtain ⟨res, hh⟩ := hh e
    refine ⟨res, fun s hs => ?_⟩
    obtain ⟨hRes, hState⟩ := hx s hs
    rw [tryCatch_run, show x r s = (.error e, (x r s).2) from Prod.ext hRes rfl]
    exact hh _ hState

end Reports

end Prog

end Lib
