import FabricFs.Server.Locks

/-!
# Conflicting locks are not held together

The lock table splits and joins ranges, so the argument is about single bytes: `Held` says
who holds which type of lock on a byte. Splitting and joining add no byte to anyone
(`held_mergePathLocks`, `held_withoutRange`), and a lock is granted only where nobody else
holds a conflicting one.

* `LockStep`: the changes of the table.
* `LockStep.peaceful`: each of them keeps conflicting locks of different owners apart.
-/

namespace FabricFs.Server

open Lib List

variable {locks : List BackendLock}

/-- The lock covers the byte. -/
def BackendLock.Contains (lock : BackendLock) (x : Nat) : Prop := lock.first ≤ x ∧ x ≤ lock.last

/-- The owner has a lock of the type on the byte. -/
def Held (locks : List BackendLock) (owner : Nat) (typ : Int) (x : Nat) : Prop :=
  ∃ lock ∈ locks, lock.owner = owner ∧ lock.typ = typ ∧ lock.Contains x

/-- The ranges are not empty and end within 64 bits. -/
def Ranged (locks : List BackendLock) : Prop :=
  ∀ lock ∈ locks, lock.first ≤ lock.last ∧ lock.last ≤ u64Max

/-- No byte is locked for writing by one owner and locked by another. -/
structure Peaceful (locks : List BackendLock) : Prop where
  ranged : Ranged locks
  apart : ∀ x owner owner' typ typ', Held locks owner typ x → Held locks owner' typ' x →
    owner ≠ owner' → typ ≠ fWrlck

theorem peaceful_nil : Peaceful [] :=
  ⟨fun _ h => (not_mem_nil h).elim, fun _ _ _ _ _ ⟨_, h, _⟩ => (not_mem_nil h).elim⟩

/-- Locks of different owners that are held together do not conflict. -/
theorem Peaceful.not_conflicts (h : Peaceful locks) {a b : BackendLock} (ha : a ∈ locks)
    (hb : b ∈ locks) :
    a.conflicts b.owner b.first b.last b.typ = false := by
  by_contra hc
  simp only [BackendLock.conflicts, rangesOverlap, Bool.not_eq_false, Bool.and_eq_true, bne_iff_ne,
    decide_eq_true_eq, Bool.or_eq_true, beq_iff_eq] at hc
  obtain ⟨⟨hOwner, hLeft, hRight⟩, hTyp⟩ := hc
  have hA := h.ranged a ha
  have hB := h.ranged b hb
  -- the later of the two starts is a byte of both
  have hHeldA : Held locks a.owner a.typ (max a.first b.first) :=
    ⟨a, ha, rfl, rfl, le_max_left _ _, max_le hA.1 hRight⟩
  have hHeldB : Held locks b.owner b.typ (max a.first b.first) :=
    ⟨b, hb, rfl, rfl, le_max_right _ _, max_le hLeft hB.1⟩
  rcases hTyp with hTyp | hTyp
  · exact h.apart _ _ _ _ _ hHeldA hHeldB hOwner hTyp
  · exact h.apart _ _ _ _ _ hHeldB hHeldA (Ne.symm hOwner) hTyp

/-- Locks that cover no more than peaceful ones are peaceful. -/
theorem Peaceful.shrink {locks' : List BackendLock} (h : Peaceful locks) (hRanged : Ranged locks')
    (hHeld : ∀ o t x, Held locks' o t x → Held locks o t x) :
    Peaceful locks' :=
  ⟨hRanged, fun x o o' t t' ha hb => h.apart x o o' t t' (hHeld o t x ha) (hHeld o' t' x hb)⟩

theorem Peaceful.filter (h : Peaceful locks) (p : BackendLock → Bool) : Peaceful (locks.filter p) :=
  h.shrink (fun lock hl => h.ranged lock (mem_of_mem_filter hl))
    (fun _ _ _ ⟨lock, hl, hrest⟩ => ⟨lock, mem_of_mem_filter hl, hrest⟩)

/-! ## Joined ranges -/

/-- The loop of `merge_path_locks` covers no byte that was not covered. -/
theorem held_mergeInto (locks : List BackendLock) : ∀ last, Ranged (last :: locks) →
    Ranged (mergeInto last locks) ∧
      ∀ o t x, Held (mergeInto last locks) o t x → Held (last :: locks) o t x := by
  induction locks with
  | nil => exact fun last hR => ⟨hR, fun _ _ _ h => h⟩
  | cons lock locks ih =>
    intro last hR
    have hLast := hR last mem_cons_self
    have hLock := hR lock (mem_cons_of_mem _ mem_cons_self)
    have hRest : ∀ l ∈ locks, l.first ≤ l.last ∧ l.last ≤ u64Max := fun l hl =>
      hR l (mem_cons_of_mem _ (mem_cons_of_mem _ hl))
    unfold mergeInto
    split
    · rename_i hJoin
      obtain ⟨hOwner, hTyp, -, -, hNext⟩ := hJoin
      obtain ⟨hRanged, hHeld⟩ := ih { last with last := max last.last lock.last } (by
        intro l hl
        rcases mem_cons.mp hl with rfl | hl
        · exact ⟨le_trans hLast.1 (le_max_left _ _), max_le hLast.2 hLock.2⟩
        · exact hRest l hl)
      refine ⟨hRanged, fun o t x hx => ?_⟩
      obtain ⟨l, hl, rfl, rfl, hFirst, hEnd⟩ := hHeld o t x hx
      rcases mem_cons.mp hl with rfl | hl
      · -- a byte of the joined range is one of the two ranges
        simp only at hFirst hEnd
        by_cases hx : x ≤ last.last
        · exact ⟨last, mem_cons_self, rfl, rfl, hFirst, hx⟩
        · refine ⟨lock, mem_cons_of_mem _ mem_cons_self, hOwner.symm, hTyp.symm, ?_, ?_⟩
          · rcases hNext with hMax | hNext
            · omega
            · omega
          · omega
      · exact ⟨l, mem_cons_of_mem _ (mem_cons_of_mem _ hl), rfl, rfl, hFirst, hEnd⟩
    · obtain ⟨hRanged, hHeld⟩ := ih lock fun l hl => hR l (mem_cons_of_mem _ hl)
      refine ⟨fun l hl => ?_, fun o t x hx => ?_⟩
      · rcases mem_cons.mp hl with rfl | hl
        · exact hLast
        · exact hRanged l hl
      · obtain ⟨l, hl, hrest⟩ := hx
        rcases mem_cons.mp hl with rfl | hl
        · exact ⟨l, mem_cons_self, hrest⟩
        · obtain ⟨m, hm, hrest⟩ := hHeld o t x ⟨l, hl, hrest⟩
          exact ⟨m, mem_cons_of_mem _ hm, hrest⟩

theorem held_mergePathLocks (hR : Ranged locks) :
    Ranged (mergePathLocks locks) ∧
      ∀ o t x, Held (mergePathLocks locks) o t x → Held locks o t x := by
  unfold mergePathLocks
  have hMem : ∀ l, l ∈ locks.insertionSort lockLe ↔ l ∈ locks :=
    fun l => (perm_insertionSort lockLe locks).mem_iff
  cases hs : locks.insertionSort lockLe with
  | nil => exact ⟨peaceful_nil.ranged, fun _ _ _ ⟨_, h, _⟩ => (not_mem_nil h).elim⟩
  | cons lock rest =>
    rw [hs] at hMem
    obtain ⟨hRanged, hHeld⟩ := held_mergeInto rest lock fun l hl => hR l ((hMem l).mp hl)
    refine ⟨hRanged, fun o t x hx => ?_⟩
    obtain ⟨l, hl, hrest⟩ := hHeld o t x hx
    exact ⟨l, (hMem l).mp hl, hrest⟩

theorem Peaceful.merge (h : Peaceful locks) : Peaceful (mergePathLocks locks) :=
  h.shrink (held_mergePathLocks h.ranged).1 (held_mergePathLocks h.ranged).2

/-! ## Split ranges -/

theorem held_withoutRange (hR : Ranged locks) (owner first last : Nat) :
    Ranged (locks.flatMap (withoutRange owner first last)) ∧
      ∀ o t x, Held (locks.flatMap (withoutRange owner first last)) o t x → Held locks o t x := by
  -- every piece lies within the lock that it is cut from
  have hPiece : ∀ piece ∈ locks.flatMap (withoutRange owner first last), ∃ lock ∈ locks,
      piece.owner = lock.owner ∧ piece.typ = lock.typ ∧ lock.first ≤ piece.first ∧
        piece.last ≤ lock.last ∧ piece.first ≤ piece.last := by
    intro piece hp
    obtain ⟨lock, hl, hp⟩ := mem_flatMap.mp hp
    have hLock := hR lock hl
    refine ⟨lock, hl, ?_⟩
    unfold withoutRange at hp
    split at hp
    · obtain rfl := mem_singleton.mp hp
      exact ⟨rfl, rfl, le_rfl, le_rfl, hLock.1⟩
    · rename_i hCut
      simp only [rangesOverlap, not_or, ne_eq, not_not, Bool.not_eq_false, Bool.and_eq_true,
        decide_eq_true_eq] at hCut
      rcases mem_append.mp hp with hp | hp
      · split at hp
        · obtain rfl := mem_singleton.mp hp
          refine ⟨rfl, rfl, le_rfl, ?_, ?_⟩ <;> simp only <;> omega
        · exact (not_mem_nil hp).elim
      · split at hp
        · obtain rfl := mem_singleton.mp hp
          refine ⟨rfl, rfl, ?_, le_rfl, ?_⟩ <;> simp only <;> omega
        · exact (not_mem_nil hp).elim
  refine ⟨fun piece hp => ?_, fun o t x hx => ?_⟩
  · obtain ⟨lock, hl, -, -, -, hLast, hOrder⟩ := hPiece piece hp
    exact ⟨hOrder, hLast.trans (hR lock hl).2⟩
  · obtain ⟨piece, hp, rfl, rfl, hFirst, hEnd⟩ := hx
    obtain ⟨lock, hl, hOwner, hTyp, hFirst', hLast', -⟩ := hPiece piece hp
    exact ⟨lock, hl, hOwner.symm, hTyp.symm, hFirst'.trans hFirst, hEnd.trans hLast'⟩

/-! ## A granted lock -/

theorem Peaceful.grant {held : List BackendLock} {lock : BackendLock} (h : Peaceful locks)
    (hRanged : Ranged held) (hHeld : ∀ o t x, Held held o t x → Held locks o t x)
    (hLock : lock.first ≤ lock.last ∧ lock.last ≤ u64Max)
    (hFree : locks.any (·.conflicts lock.owner lock.first lock.last lock.typ) = false) :
    Peaceful (held ++ [lock]) := by
  -- a byte of another owner within the range of the new lock
  have hOther : ∀ o t x, Held locks o t x → lock.Contains x → o ≠ lock.owner →
      t ≠ fWrlck ∧ lock.typ ≠ fWrlck := by
    rintro o t x ⟨l, hl, rfl, rfl, hx⟩ hx' ho
    have hc := any_eq_false.mp hFree l hl
    simp only [BackendLock.conflicts, rangesOverlap, Bool.and_eq_true, bne_iff_ne,
      decide_eq_true_eq, Bool.or_eq_true, beq_iff_eq] at hc
    have hBoth : l.first ≤ lock.last ∧ lock.first ≤ l.last :=
      ⟨hx.1.trans hx'.2, hx'.1.trans hx.2⟩
    exact not_or.mp fun ht => hc ⟨⟨ho, hBoth⟩, ht⟩
  have hCases : ∀ o t x, Held (held ++ [lock]) o t x →
      Held locks o t x ∨ o = lock.owner ∧ t = lock.typ ∧ lock.Contains x := by
    rintro o t x ⟨l, hl, rfl, rfl, hx⟩
    rcases mem_append.mp hl with hl | hl
    · exact .inl (hHeld _ _ _ ⟨l, hl, rfl, rfl, hx⟩)
    · obtain rfl := mem_singleton.mp hl
      exact .inr ⟨rfl, rfl, hx⟩
  refine ⟨fun l hl => ?_, fun x o o' t t' ha hb ho => ?_⟩
  · rcases mem_append.mp hl with hl | hl
    · exact hRanged l hl
    · rw [mem_singleton.mp hl]
      exact hLock
  · replace ha := hCases o t x ha
    replace hb := hCases o' t' x hb
    rcases ha with ha | ⟨rfl, rfl, ha⟩
    · rcases hb with hb | ⟨rfl, rfl, hb⟩
      · exact h.apart x o o' t t' ha hb ho
      · exact (hOther o t x ha hb ho).1
    · rcases hb with hb | ⟨rfl, -, -⟩
      · exact (hOther o' t' x hb ha ho.symm).2
      · exact absurd rfl ho

/-! ## Tables -/

namespace LockTable

variable {table table' : LockTable}

theorem locksOf_setLocks (key : Nat) (locks : List BackendLock) (k : Nat) :
    locksOf (setLocks table key locks) k = if k = key then locks else locksOf table k := by
  unfold setLocks locksOf
  by_cases hk : k = key
  · subst hk
    split
    · rename_i hNil
      rw [AList.lookup_erase, if_pos rfl, hNil]
      rfl
    · rw [AList.lookup_insert, if_pos rfl]
      rfl
  · rw [if_neg hk]
    split
    · rw [AList.lookup_erase_ne hk]
    · rw [AList.lookup_insert_ne hk]

/-- In every file conflicting locks of different owners are apart. -/
def Peaceful (table : LockTable) : Prop := ∀ key, Server.Peaceful (locksOf table key)

theorem Peaceful.setLocks (h : Peaceful table) {key : Nat} {locks : List BackendLock}
    (hLocks : Server.Peaceful locks) : Peaceful (setLocks table key locks) := by
  intro k
  rw [locksOf_setLocks]
  split
  · exact hLocks
  · exact h k

theorem Peaceful.mapLocks (h : Peaceful table) {f : List BackendLock → List BackendLock}
    (hf : ∀ locks, Server.Peaceful locks → Server.Peaceful (f locks)) :
    Peaceful (mapLocks table f) := by
  unfold LockTable.mapLocks
  -- every file has its old locks or the mapped ones
  have hFold : ∀ (keys : List Nat) (acc : LockTable), Peaceful acc →
      Peaceful (keys.foldl (fun acc key =>
        LockTable.setLocks acc key (f (locksOf table key))) acc) := by
    intro keys
    induction keys with
    | nil => exact fun acc hAcc => hAcc
    | cons key keys ih => exact fun acc hAcc => ih _ (hAcc.setLocks (hf _ (h key)))
  exact hFold _ _ h

/-- What is left when an owner gives a range of a file up. -/
theorem locksOf_unlockOwnedRange (key owner first last k : Nat) :
    locksOf (unlockOwnedRange table key owner first last) k = if k = key then
      mergePathLocks ((locksOf table key).flatMap (withoutRange owner first last))
    else locksOf table k := by
  unfold unlockOwnedRange
  cases hl : table.lookup key with
  | none =>
    have hNil : locksOf table key = [] := by rw [locksOf, hl]; rfl
    by_cases hk : k = key
    · rw [if_pos hk, hk, hNil]
      rfl
    · rw [if_neg hk]
  | some locks =>
    have hLocks : locksOf table key = locks := by rw [locksOf, hl]; rfl
    simp only [locksOf_setLocks, hLocks]

theorem Peaceful.unlockOwnedRange (h : Peaceful table) (key owner first last : Nat) :
    Peaceful (unlockOwnedRange table key owner first last) := by
  intro k
  rw [locksOf_unlockOwnedRange]
  split
  · obtain ⟨hRanged, hHeld⟩ := held_withoutRange (h key).ranged owner first last
    exact ((h key).shrink hRanged hHeld).merge
  · exact h k

/-- The changes that the requests make to the table. -/
inductive LockStep (table : LockTable) : LockTable → Prop
  | idle : LockStep table table
  | closed (handle : Nat) : LockStep table (releaseHandle table handle)
  | released (key owner : Nat) : LockStep table (releaseOwner table key owner)
  | renamed : LockStep table (renamePath table)
  | set {key handle owner first last : Nat} {typ : Int} {pid : Nat} {table' : LockTable}
      (hLast : last ≤ u64Max)
      (h : setlk table key handle owner first last typ pid = .ok table') : LockStep table table'

theorem Peaceful.setlk (h : Peaceful table) {key handle owner first last : Nat} {typ : Int}
    {pid : Nat} (hLast : last ≤ u64Max)
    (hSet : setlk table key handle owner first last typ pid = .ok table') : Peaceful table' := by
  unfold LockTable.setlk at hSet
  split at hSet
  · cases hSet
  · rename_i hValid
    have hOrder : first ≤ last := by
      unfold validateLockRequest at hValid
      split at hValid
      · cases hValid
      · omega
    split at hSet
    · cases hSet
      exact h.unlockOwnedRange key owner first last
    · split at hSet
      · cases hSet
      · rename_i hFree
        cases hSet
        refine (h.unlockOwnedRange key owner first last).setLocks (Peaceful.merge ?_)
        rw [locksOf_unlockOwnedRange, if_pos rfl]
        obtain ⟨hRanged, hHeld⟩ := held_withoutRange (h key).ranged owner first last
        obtain ⟨hRanged', hHeld'⟩ := held_mergePathLocks hRanged
        exact (h key).grant hRanged' (fun o t x hx => hHeld o t x (hHeld' o t x hx))
          ⟨hOrder, hLast⟩ (by simpa using hFree)

theorem LockStep.peaceful (hStep : LockStep table table') (h : Peaceful table) :
    Peaceful table' := by
  cases hStep with
  | idle => exact h
  | closed handle => exact h.mapLocks fun locks hl => hl.filter _
  | released key owner =>
    unfold LockTable.releaseOwner
    cases hl : table.lookup key with
    | none => exact h
    | some locks =>
      have hLocks := h key
      rw [locksOf, hl] at hLocks
      exact h.setLocks (hLocks.filter _)
  | renamed => exact h.mapLocks fun locks hl => hl.merge
  | set hLast hSet => exact h.setlk hLast hSet

end LockTable

end FabricFs.Server
