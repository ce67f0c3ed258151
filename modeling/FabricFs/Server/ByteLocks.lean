import FabricFs.Lib.Runs
import FabricFs.Server.Exclusion

/-!
# The lock table as a map of bytes

What the POSIX lock table is for: every owner may hold one lock on every byte of every file.
`ByteMap` is that map, with the calls applied byte by byte. `Tiled` says that a list of ranges
stands for the part of the map that belongs to one file.

* `Tiled.merge`, `Tiled.cut`, `Tiled.grant`: joining, splitting and adding ranges.
* `LockCall.exec_agrees`: a call of the table and the same call of the map give the same answer.
* `lockTable_is_byteMap`: this holds after any calls; no range of an owner overlaps another,
  no owners conflict, and `getlk` tells what `setlk` would do.
-/

namespace FabricFs.Server

open Lib Lib.Runs LockTable List

/-! ## The map -/

/-- What an owner holds on a byte. -/
structure Grant where
  typ : Int
  pid : Nat
  handle : Nat
  deriving DecidableEq, Repr

/-- The grant by file, owner and byte. -/
abbrev ByteMap : Type := Nat → Nat → Nat → Option Grant

namespace ByteMap

variable (bytes : ByteMap)

/-- Give the bytes of a range the grant, or none. -/
def assign (key owner first last : Nat) (grant : Option Grant) : ByteMap := fun k o x =>
  if k = key ∧ o = owner ∧ first ≤ x ∧ x ≤ last then grant else bytes k o x

/-- Another owner holds a byte of the range in a way that excludes the type. -/
def Conflict (key owner first last : Nat) (typ : Int) : Prop :=
  ∃ o x g, o ≠ owner ∧ first ≤ x ∧ x ≤ last ∧ bytes key o x = some g ∧
    (g.typ = fWrlck ∨ typ = fWrlck)

open Classical in
noncomputable def setlk (key handle owner first last : Nat) (typ : Int) (pid : Nat) :
    Except Errno ByteMap :=
  match validateLockRequest first last typ with
  | .error e => .error e
  | .ok () =>
    if typ = fUnlck then .ok (assign bytes key owner first last none)
    else if Conflict bytes key owner first last typ then .error .eagain
    else .ok (assign bytes key owner first last (some ⟨typ, pid, handle⟩))

def releaseHandle (handle : Nat) : ByteMap := fun k o x =>
  (bytes k o x).filter (fun grant => grant.handle != handle)

def releaseOwner (key owner : Nat) : ByteMap := fun k o x =>
  if k = key ∧ o = owner then none else bytes k o x

end ByteMap

/-! ## Ranges that stand for a map -/

def BackendLock.grant (lock : BackendLock) : Grant := ⟨lock.typ, lock.pid, lock.handle⟩

/-- The locks of one owner share no byte. -/
def BackendLock.Apart (a b : BackendLock) : Prop :=
  a.owner = b.owner → ∀ x, a.Contains x → ¬ b.Contains x

/-- The owner has the grant on the byte. -/
def Granted (locks : List BackendLock) (owner x : Nat) (grant : Grant) : Prop :=
  ∃ lock ∈ locks, lock.owner = owner ∧ lock.Contains x ∧ lock.grant = grant

/-- The ranges cover every byte as the map says and cover it once. -/
structure Tiled (locks : List BackendLock) (holds : Nat → Nat → Option Grant) : Prop where
  ranged : Ranged locks
  apart : locks.Pairwise BackendLock.Apart
  exact : ∀ o x g, holds o x = some g ↔ Granted locks o x g

theorem tiled_nil : Tiled [] (fun _ _ => none) :=
  ⟨peaceful_nil.ranged, .nil, fun o x g => by simp [Granted]⟩

theorem granted_cons {lock : BackendLock} {locks : List BackendLock} {o x : Nat} {g : Grant} :
    Granted (lock :: locks) o x g ↔
      (lock.owner = o ∧ lock.Contains x ∧ lock.grant = g) ∨ Granted locks o x g := by
  simp [Granted]

theorem granted_append {locks locks' : List BackendLock} {o x : Nat} {g : Grant} :
    Granted (locks ++ locks') o x g ↔ Granted locks o x g ∨ Granted locks' o x g := by
  simp [Granted, or_and_right, exists_or]

namespace Tiled

variable {locks : List BackendLock} {holds holds' : Nat → Nat → Option Grant}

theorem congr (h : Tiled locks holds) (hEq : ∀ o x, holds o x = holds' o x) :
    Tiled locks holds' :=
  ⟨h.ranged, h.apart, fun o x g => by rw [← hEq]; exact h.exact o x g⟩

theorem any_conflicts (h : Tiled locks holds) (owner : Nat) {first last : Nat} (typ : Int)
    (hOrder : first ≤ last) : locks.any (·.conflicts owner first last typ) = true ↔
      ∃ o x g, o ≠ owner ∧ first ≤ x ∧ x ≤ last ∧ holds o x = some g ∧
        (g.typ = fWrlck ∨ typ = fWrlck) := by
  simp only [any_eq_true, BackendLock.conflicts, rangesOverlap, Bool.and_eq_true, bne_iff_ne,
    decide_eq_true_eq, Bool.or_eq_true, beq_iff_eq]
  constructor
  · rintro ⟨lock, hl, ⟨hOwner, hLeft, hRight⟩, hTyp⟩
    have hRange := h.ranged lock hl
    -- the later of the two starts is a byte of both
    refine ⟨lock.owner, max lock.first first, lock.grant, hOwner, le_max_right _ _,
      max_le hLeft hOrder, (h.exact _ _ _).2 ⟨lock, hl, rfl, ?_, rfl⟩, hTyp⟩
    exact ⟨le_max_left _ _, max_le hRange.1 hRight⟩
  · rintro ⟨o, x, g, hOwner, hFirst, hLast, hHolds, hTyp⟩
    obtain ⟨lock, hl, rfl, hx, rfl⟩ := (h.exact _ _ _).1 hHolds
    exact ⟨lock, hl, ⟨hOwner, hx.1.trans hLast, hFirst.trans hx.2⟩, hTyp⟩

theorem filter (h : Tiled locks holds) {p : BackendLock → Bool} {q : Nat → Grant → Bool}
    (hp : ∀ lock, p lock = q lock.owner lock.grant) :
    Tiled (locks.filter p) (fun o x => (holds o x).filter (q o)) := by
  refine ⟨fun lock hl => h.ranged lock (mem_of_mem_filter hl), h.apart.filter p,
    fun o x g => ?_⟩
  rw [Option.filter_eq_some_iff, h.exact]
  constructor
  · rintro ⟨⟨lock, hl, rfl, hx, rfl⟩, hq⟩
    exact ⟨lock, mem_filter.2 ⟨hl, (hp lock).trans hq⟩, rfl, hx, rfl⟩
  · rintro ⟨lock, hl, rfl, hx, rfl⟩
    have hl := mem_filter.1 hl
    exact ⟨⟨lock, hl.1, rfl, hx, rfl⟩, (hp lock).symm.trans hl.2⟩

end Tiled

/-! ### Joined ranges -/

/-- The lists that the loop of `merge_path_locks` is called on. -/
structure Mergeable (locks : List BackendLock) : Prop where
  ranged : Ranged locks
  sorted : locks.Pairwise lockLe

namespace Mergeable

variable {last lock : BackendLock} {locks : List BackendLock}

theorem tail (h : Mergeable (lock :: locks)) : Mergeable locks :=
  ⟨fun l hl => h.ranged l (mem_cons_of_mem _ hl), (pairwise_cons.1 h.sorted).2⟩

/-- The order does not look at the end of a range. -/
theorem join (h : Mergeable (last :: lock :: locks)) :
    Mergeable ({ last with last := max last.last lock.last } :: locks) := by
  have hLast := h.ranged last mem_cons_self
  have hLock := h.tail.ranged lock mem_cons_self
  refine ⟨fun l hl => ?_, pairwise_cons.2 ⟨fun l hl => ?_, h.tail.tail.sorted⟩⟩
  · rcases mem_cons.1 hl with rfl | hl
    · exact ⟨hLast.1.trans (le_max_left _ _), max_le hLast.2 hLock.2⟩
    · exact h.tail.tail.ranged l hl
  · exact (pairwise_cons.1 h.sorted).1 l (mem_cons_of_mem _ hl)

/-- The loop joins two locks that are next to each other. -/
theorem contains_join (h : Mergeable (last :: lock :: locks))
    (hJoin : last.owner = lock.owner ∧ last.typ = lock.typ ∧ last.pid = lock.pid ∧
      last.handle = lock.handle ∧ (last.last = u64Max ∨ last.last + 1 ≥ lock.first)) (x : Nat) :
    BackendLock.Contains { last with last := max last.last lock.last } x ↔
      last.Contains x ∨ lock.Contains x := by
  obtain ⟨hOwner, hTyp, hPid, hHandle, hNext⟩ := hJoin
  have hLe := (pairwise_cons.1 h.sorted).1 lock mem_cons_self
  have hLast := (h.tail.ranged lock mem_cons_self).2
  simp only [lockLe] at hLe
  simp only [BackendLock.Contains]
  omega

end Mergeable

theorem granted_mergeInto (locks : List BackendLock) : ∀ last, Mergeable (last :: locks) →
    ∀ o x g, Granted (mergeInto last locks) o x g ↔ Granted (last :: locks) o x g := by
  induction locks with
  | nil => exact fun last _ o x g => Iff.rfl
  | cons lock locks ih =>
    intro last h o x g
    unfold mergeInto
    split
    · rename_i hJoin
      have hGrant : lock.grant = last.grant := by
        simp only [BackendLock.grant, hJoin]
      rw [ih _ h.join, granted_cons, granted_cons, granted_cons, h.contains_join hJoin, hGrant,
        ← hJoin.1]
      change (last.owner = o ∧ _ ∧ last.grant = g) ∨ _ ↔ _
      tauto
    · rw [granted_cons, ih lock h.tail, ← granted_cons]

theorem apart_mergeInto (locks : List BackendLock) : ∀ last, Mergeable (last :: locks) →
    (last :: locks).Pairwise BackendLock.Apart →
    (mergeInto last locks).Pairwise BackendLock.Apart := by
  induction locks with
  | nil => exact fun last _ hApart => hApart
  | cons lock locks ih =>
    intro last h hApart
    obtain ⟨hFree, hApartTail⟩ := pairwise_cons.1 hApart
    obtain ⟨hFreeTail, hApartRest⟩ := pairwise_cons.1 hApartTail
    unfold mergeInto
    split
    · rename_i hJoin
      refine ih _ h.join (pairwise_cons.2 ⟨fun l hl hSame x hx hl' => ?_, hApartRest⟩)
      rcases (h.contains_join hJoin x).1 hx with hx | hx
      · exact hFree l (mem_cons_of_mem _ hl) hSame x hx hl'
      · exact hFreeTail l hl (hJoin.1.symm.trans hSame) x hx hl'
    · refine pairwise_cons.2 ⟨fun m hm hSame x hx hm' => ?_, ih lock h.tail hApartTail⟩
      -- the byte belongs to one of the locks that were merged
      obtain ⟨l, hl, hOwner, hl', -⟩ :=
        (granted_mergeInto locks lock h.tail m.owner x m.grant).1 ⟨m, hm, rfl, hm', rfl⟩
      exact hFree l hl (hSame.trans hOwner.symm) x hx hl'

instance : Std.Total lockLe := ⟨fun a b => by simp only [lockLe]; omega⟩

instance : IsTrans BackendLock lockLe := ⟨fun a b c => by simp only [lockLe]; omega⟩

theorem Tiled.merge {locks : List BackendLock} {holds : Nat → Nat → Option Grant}
    (h : Tiled locks holds) : Tiled (mergePathLocks locks) holds := by
  have hPerm := perm_insertionSort lockLe locks
  have hMerge : Mergeable (locks.insertionSort lockLe) :=
    ⟨fun l hl => h.ranged l (hPerm.mem_iff.1 hl), pairwise_insertionSort lockLe locks⟩
  have hApart : (locks.insertionSort lockLe).Pairwise BackendLock.Apart :=
    hPerm.symm.pairwise h.apart fun {a b} hab hSame x hb ha => hab hSame.symm x ha hb
  have hGranted : ∀ o x g, Granted locks o x g ↔ Granted (locks.insertionSort lockLe) o x g := by
    intro o x g
    simp only [Granted, hPerm.mem_iff]
  refine ⟨(held_mergePathLocks h.ranged).1, ?_, fun o x g =>
    ((h.exact o x g).trans (hGranted o x g)).trans ?_⟩
  · unfold mergePathLocks
    cases hs : locks.insertionSort lockLe with
    | nil => exact .nil
    | cons lock rest =>
      rw [hs] at hMerge hApart
      exact apart_mergeInto rest lock hMerge hApart
  · unfold mergePathLocks
    cases hs : locks.insertionSort lockLe with
    | nil => exact Iff.rfl
    | cons lock rest =>
      rw [hs] at hMerge
      exact (granted_mergeInto rest lock hMerge o x g).symm

/-! ### Split ranges -/

section Cut

variable {owner first last : Nat} {lock piece : BackendLock}

theorem piece_of_withoutRange (h : piece ∈ withoutRange owner first last lock) :
    piece.owner = lock.owner ∧ piece.grant = lock.grant ∧
      ∀ x, piece.Contains x → lock.Contains x ∧ ¬ (lock.owner = owner ∧ first ≤ x ∧ x ≤ last) := by
  unfold withoutRange at h
  split at h
  · rename_i hKeep
    obtain rfl := mem_singleton.1 h
    refine ⟨rfl, rfl, fun x hx => ⟨hx, ?_⟩⟩
    simp only [rangesOverlap, Bool.and_eq_false_iff, decide_eq_false_iff_not] at hKeep
    simp only [BackendLock.Contains] at hx
    omega
  · rename_i hCut
    simp only [rangesOverlap, not_or, ne_eq, not_not, Bool.not_eq_false, Bool.and_eq_true,
      decide_eq_true_eq] at hCut
    rcases mem_append.1 h with h | h
    · split at h
      · obtain rfl := mem_singleton.1 h
        refine ⟨rfl, rfl, fun x hx => ?_⟩
        simp only [BackendLock.Contains] at hx ⊢
        omega
      · exact (not_mem_nil h).elim
    · split at h
      · obtain rfl := mem_singleton.1 h
        refine ⟨rfl, rfl, fun x hx => ?_⟩
        simp only [BackendLock.Contains] at hx ⊢
        omega
      · exact (not_mem_nil h).elim

theorem exists_piece {x : Nat} (hx : lock.Contains x)
    (hOut : ¬ (lock.owner = owner ∧ first ≤ x ∧ x ≤ last)) :
    ∃ piece ∈ withoutRange owner first last lock, piece.Contains x := by
  unfold withoutRange
  split
  · exact ⟨lock, mem_singleton_self _, hx⟩
  · rename_i hCut
    simp only [not_or, ne_eq, not_not] at hCut
    have hSide : x < first ∨ last < x := by
      by_contra hIn
      exact hOut ⟨hCut.1, by omega, by omega⟩
    rcases hSide with hLeft | hRight
    · refine ⟨{ lock with last := first - 1 }, ?_, hx.1, ?_⟩
      · rw [if_pos (lt_of_le_of_lt hx.1 hLeft)]
        exact mem_append_left _ (mem_singleton_self _)
      · show x ≤ first - 1
        omega
    · refine ⟨{ lock with first := last + 1 }, ?_, hRight, hx.2⟩
      rw [if_pos (lt_of_lt_of_le hRight hx.2)]
      exact mem_append_right _ (mem_singleton_self _)

theorem apart_withoutRange (hOrder : first ≤ last) :
    (withoutRange owner first last lock).Pairwise BackendLock.Apart := by
  unfold withoutRange
  split
  · exact pairwise_singleton _ _
  · refine pairwise_append.2 ⟨?_, ?_, ?_⟩
    · split
      · exact pairwise_singleton _ _
      · exact .nil
    · split
      · exact pairwise_singleton _ _
      · exact .nil
    · intro a ha b hb _ x hxa hxb
      split at ha
      · obtain rfl := mem_singleton.1 ha
        split at hb
        · obtain rfl := mem_singleton.1 hb
          simp only [BackendLock.Contains] at hxa hxb
          omega
        · exact not_mem_nil hb
      · exact not_mem_nil ha

end Cut

theorem Tiled.cut {locks : List BackendLock} {holds : Nat → Nat → Option Grant}
    (h : Tiled locks holds) {owner first last : Nat} (hOrder : first ≤ last) :
    Tiled (locks.flatMap (withoutRange owner first last))
      (fun o x => if o = owner ∧ first ≤ x ∧ x ≤ last then none else holds o x) := by
  refine ⟨(held_withoutRange h.ranged owner first last).1, ?_, fun o x g => ?_⟩
  · refine pairwise_flatMap.2 ⟨fun lock _ => apart_withoutRange hOrder, ?_⟩
    refine h.apart.imp fun {a b} hab p hp q hq hSame x hxp hxq => ?_
    obtain ⟨hOwner, -, hIn⟩ := piece_of_withoutRange hp
    obtain ⟨hOwner', -, hIn'⟩ := piece_of_withoutRange hq
    exact hab (hOwner.symm.trans (hSame.trans hOwner')) x (hIn x hxp).1 (hIn' x hxq).1
  · constructor
    · intro hHolds
      split at hHolds
      · cases hHolds
      · rename_i hOut
        obtain ⟨lock, hl, rfl, hx, rfl⟩ := (h.exact _ _ _).1 hHolds
        obtain ⟨piece, hp, hx⟩ := exists_piece hx hOut
        obtain ⟨hOwner, hGrant, -⟩ := piece_of_withoutRange hp
        exact ⟨piece, mem_flatMap.2 ⟨lock, hl, hp⟩, hOwner, hx, hGrant⟩
    · rintro ⟨piece, hp, rfl, hx, rfl⟩
      obtain ⟨lock, hl, hp⟩ := mem_flatMap.1 hp
      obtain ⟨hOwner, hGrant, hIn⟩ := piece_of_withoutRange hp
      obtain ⟨hx, hOut⟩ := hIn x hx
      rw [hOwner, hGrant, if_neg hOut]
      exact (h.exact _ _ _).2 ⟨lock, hl, rfl, hx, rfl⟩

/-- A lock is added where its owner holds nothing. -/
theorem Tiled.grant {locks : List BackendLock} {holds : Nat → Nat → Option Grant}
    (h : Tiled locks holds) (lock : BackendLock)
    (hLock : lock.first ≤ lock.last ∧ lock.last ≤ u64Max)
    (hFree : ∀ x, lock.Contains x → holds lock.owner x = none) :
    Tiled (locks ++ [lock]) (fun o x =>
      if o = lock.owner ∧ lock.first ≤ x ∧ x ≤ lock.last then some lock.grant else holds o x) := by
  refine ⟨fun l hl => ?_, ?_, fun o x g => ?_⟩
  · rcases mem_append.1 hl with hl | hl
    · exact h.ranged l hl
    · rw [mem_singleton.1 hl]
      exact hLock
  · refine pairwise_append.2 ⟨h.apart, pairwise_singleton _ _, fun l hl m hm => ?_⟩
    obtain rfl := mem_singleton.1 hm
    intro hSame x hx hx'
    have hHolds := (h.exact l.owner x l.grant).2 ⟨l, hl, rfl, hx, rfl⟩
    rw [hSame, hFree x hx'] at hHolds
    cases hHolds
  · have hOne : Granted [lock] o x g ↔ lock.owner = o ∧ lock.Contains x ∧ lock.grant = g := by
      simp [Granted]
    rw [granted_append, ← h.exact, hOne]
    split
    · rename_i hIn
      obtain ⟨rfl, hx⟩ := hIn
      rw [hFree x hx]
      simp [BackendLock.Contains, hx]
    · rename_i hOut
      refine ⟨.inl, fun hEither => hEither.resolve_right ?_⟩
      rintro ⟨rfl, hx, -⟩
      exact hOut ⟨rfl, hx⟩

/-! ## The table -/

/-- The table stands for the map. -/
def Represents (table : LockTable) (bytes : ByteMap) : Prop :=
  ∀ key, Tiled (locksOf table key) (bytes key)

namespace LockTable

variable {table : LockTable} {bytes : ByteMap}

theorem locksOf_mapLocks {f : List BackendLock → List BackendLock} (hf : f [] = []) (key : Nat) :
    locksOf (mapLocks table f) key = f (locksOf table key) := by
  unfold mapLocks
  have hFold : ∀ (keys : List Nat) (acc : LockTable),
      locksOf (keys.foldl (fun acc key => setLocks acc key (f (locksOf table key))) acc) key =
        if key ∈ keys then f (locksOf table key) else locksOf acc key := by
    intro keys
    induction keys with
    | nil => exact fun acc => rfl
    | cons k keys ih =>
      intro acc
      rw [foldl_cons, ih, locksOf_setLocks]
      by_cases hk : key = k
      · subst hk
        simp
      · simp [hk]
  rw [hFold]
  split
  · rfl
  · rename_i hKey
    have hNone : locksOf table key = [] := by
      rw [locksOf, AList.lookup_eq_none.2 (fun h => hKey (AList.mem_keys.1 h))]
      rfl
    rw [hNone, hf]

theorem locksOf_releaseOwner (key owner k : Nat) :
    locksOf (releaseOwner table key owner) k = if k = key then
      (locksOf table k).filter (fun lock => lock.owner != owner) else locksOf table k := by
  unfold releaseOwner
  cases hl : table.lookup key with
  | none =>
    by_cases hk : k = key
    · subst hk
      rw [if_pos rfl, locksOf, hl]
      rfl
    · rw [if_neg hk]
  | some locks =>
    rw [locksOf_setLocks]
    by_cases hk : k = key
    · subst hk
      rw [if_pos rfl, if_pos rfl, locksOf, hl]
      rfl
    · rw [if_neg hk, if_neg hk]

end LockTable

theorem Represents.setLocks {table : LockTable} {bytes bytes' : ByteMap}
    (h : Represents table bytes) {key : Nat} {locks : List BackendLock}
    (hLocks : Tiled locks (bytes' key)) (hOther : ∀ k, k ≠ key → bytes' k = bytes k) :
    Represents (setLocks table key locks) bytes' := by
  intro k
  rw [locksOf_setLocks]
  split
  · rename_i hk
    rw [hk]
    exact hLocks
  · rename_i hk
    rw [hOther k hk]
    exact h k

attribute [local simp] ByteMap.releaseOwner ByteMap.assign

theorem Represents.unlockOwnedRange {table : LockTable} {bytes : ByteMap}
    (h : Represents table bytes) (key owner : Nat) {first last : Nat} (hOrder : first ≤ last) :
    Represents (unlockOwnedRange table key owner first last)
      (bytes.assign key owner first last none) := by
  intro k
  rw [locksOf_unlockOwnedRange]
  split
  · rename_i hk
    exact ((h key).cut hOrder).merge.congr fun o x => by simp [hk]
  · rename_i hk
    exact (h k).congr fun o x => by simp [hk]

/-- The calls of the POSIX lock table; unlocking is `setlk` with `F_UNLCK`. -/
inductive LockCall where
  | setlk (key handle owner first last : Nat) (typ : Int) (pid : Nat)
  | releaseHandle (handle : Nat)
  | releaseOwner (key owner : Nat)
  deriving DecidableEq, Repr

namespace LockCall

/-- The end of a range is a 64-bit number. -/
def InRange : LockCall → Prop
  | .setlk _ _ _ _ last _ _ => last ≤ u64Max
  | _ => True

instance : DecidablePred InRange := fun call => by
  cases call <;> simp only [InRange] <;> infer_instance

def exec (table : LockTable) : LockCall → Except Errno LockTable
  | .setlk key handle owner first last typ pid =>
    LockTable.setlk table key handle owner first last typ pid
  | .releaseHandle handle => .ok (LockTable.releaseHandle table handle)
  | .releaseOwner key owner => .ok (LockTable.releaseOwner table key owner)

noncomputable def onBytes (bytes : ByteMap) : LockCall → Except Errno ByteMap
  | .setlk key handle owner first last typ pid =>
    bytes.setlk key handle owner first last typ pid
  | .releaseHandle handle => .ok (bytes.releaseHandle handle)
  | .releaseOwner key owner => .ok (bytes.releaseOwner key owner)

end LockCall

/-- The same answer, and what follows it stands for the same map. -/
def Agree : Except Errno LockTable → Except Errno ByteMap → Prop
  | .ok table, .ok bytes => Represents table bytes
  | .error e, .error e' => e = e'
  | _, _ => False

section Calls

variable {table : LockTable} {bytes : ByteMap}

theorem setlk_agrees (h : Represents table bytes) {key handle owner first last : Nat} {typ : Int}
    {pid : Nat} (hLast : last ≤ u64Max) :
    Agree (setlk table key handle owner first last typ pid)
      (bytes.setlk key handle owner first last typ pid) := by
  unfold setlk ByteMap.setlk
  cases hValid : validateLockRequest first last typ with
  | error e => exact rfl
  | ok u =>
    have hOrder : first ≤ last := by
      unfold validateLockRequest at hValid
      split at hValid
      · cases hValid
      · omega
    dsimp only
    by_cases hUnlock : typ = fUnlck
    · rw [if_pos hUnlock, if_pos hUnlock]
      exact h.unlockOwnedRange key owner hOrder
    · rw [if_neg hUnlock, if_neg hUnlock]
      have hAny := (h key).any_conflicts owner typ hOrder
      by_cases hBusy : bytes.Conflict key owner first last typ
      · rw [if_pos (hAny.2 hBusy), if_pos hBusy]
        exact rfl
      · rw [if_neg (fun hAnyTrue => hBusy (hAny.1 hAnyTrue)), if_neg hBusy]
        have hCut := h.unlockOwnedRange key owner hOrder
        have hGrant := (hCut key).grant ⟨handle, owner, first, last, typ, pid⟩
          ⟨hOrder, hLast⟩ fun x hx => if_pos ⟨rfl, rfl, hx⟩
        refine hCut.setLocks (hGrant.merge.congr fun o x => ?_) fun k hk => ?_
        · by_cases hIn : o = owner ∧ first ≤ x ∧ x ≤ last
          · simp [hIn, BackendLock.grant]
          · simp [hIn]
        · funext o x
          simp [hk]

theorem LockCall.exec_agrees (h : Represents table bytes) {call : LockCall}
    (hRange : call.InRange) : Agree (call.exec table) (call.onBytes bytes) := by
  cases call with
  | setlk key handle owner first last typ pid => exact setlk_agrees h hRange
  | releaseHandle handle =>
    intro key
    rw [LockTable.releaseHandle, LockTable.locksOf_mapLocks rfl]
    exact (h key).filter fun lock => rfl
  | releaseOwner key owner =>
    intro k
    rw [locksOf_releaseOwner]
    split
    · rename_i hk
      subst hk
      refine ((h k).filter (q := fun o _ => o != owner) fun lock => rfl).congr fun o x => ?_
      by_cases ho : o = owner
      · simp [ho]
      · cases hg : bytes k o x with
        | none => simp [hg]
        | some g => simp [hg, ho, Option.filter]
    · rename_i hk
      exact (h k).congr fun o x => by simp [hk]

/-- `getlk` tells whether `setlk` would succeed. -/
theorem getlk_eq_none_iff (key handle owner first last : Nat) (typ : Int) (pid : Nat) :
    getlk table key owner first last typ = .ok none ↔
      ∃ table', setlk table key handle owner first last typ pid = .ok table' := by
  unfold getlk setlk
  cases validateLockRequest first last typ with
  | error e => simp
  | ok u =>
    by_cases hUnlock : typ = fUnlck
    · simp [hUnlock]
    · cases hFind : (locksOf table key).find? (·.conflicts owner first last typ) with
      | none =>
        have hFree : (locksOf table key).any (·.conflicts owner first last typ) = false := by
          simpa using List.find?_eq_none.1 hFind
        simp [hUnlock, hFree]
      | some lock =>
        have hConflict : lock.conflicts owner first last typ = true :=
          List.find?_some (p := fun l : BackendLock => l.conflicts owner first last typ) hFind
        have hBusy : (locksOf table key).any (·.conflicts owner first last typ) = true :=
          any_eq_true.2 ⟨lock, mem_of_find?_eq_some hFind, hConflict⟩
        simp [hUnlock, hBusy]

/-- The lock that `getlk` reports is held by another owner, on every byte that it names, and
excludes the request on a byte of its range. -/
theorem getlk_eq_some (h : Represents table bytes) {key owner first last : Nat} {typ : Int}
    {found : FileLock} (hFound : getlk table key owner first last typ = .ok found) :
    rangesOverlap found.first found.last first last = true ∧
      (found.typ = fWrlck ∨ typ = fWrlck) ∧ ∃ o handle, o ≠ owner ∧
        ∀ x, found.first ≤ x → x ≤ found.last →
          bytes key o x = some ⟨found.typ, found.pid, handle⟩ := by
  unfold getlk at hFound
  split at hFound
  · cases hFound
  · split at hFound
    · cases hFound
    · obtain ⟨lock, hFind, rfl⟩ := Option.map_eq_some_iff.1 (Except.ok.inj hFound)
      have hMem := mem_of_find?_eq_some hFind
      have hConflict := List.find?_some hFind
      simp only [BackendLock.conflicts, Bool.and_eq_true, bne_iff_ne, Bool.or_eq_true,
        beq_iff_eq] at hConflict
      obtain ⟨⟨hOwner, hOverlap⟩, hTyp⟩ := hConflict
      refine ⟨hOverlap, hTyp, lock.owner, lock.handle, hOwner, fun x hFirst hLast => ?_⟩
      exact ((h key).exact _ _ _).2 ⟨lock, hMem, rfl, ⟨hFirst, hLast⟩, rfl⟩

end Calls

/-! ## Whole runs -/

/-- A refused call leaves the table as it is. -/
def lockStep (call : LockCall) (table : LockTable) : LockTable :=
  match call.exec table with
  | .ok table => table
  | .error _ => table

noncomputable def byteStep (call : LockCall) (bytes : ByteMap) : ByteMap :=
  match call.onBytes bytes with
  | .ok bytes => bytes
  | .error _ => bytes

theorem represents_step {table : LockTable} {bytes : ByteMap} (call : LockCall)
    (hRange : call.InRange) (h : Represents table bytes) :
    Represents (lockStep call table) (byteStep call bytes) := by
  have hAgree := LockCall.exec_agrees h hRange
  unfold lockStep byteStep
  cases hTable : call.exec table with
  | ok table' =>
    cases hBytes : call.onBytes bytes with
    | ok bytes' =>
      rw [hTable, hBytes] at hAgree
      exact hAgree
    | error e =>
      rw [hTable, hBytes] at hAgree
      exact hAgree.elim
  | error e =>
    cases hBytes : call.onBytes bytes with
    | ok bytes' =>
      rw [hTable, hBytes] at hAgree
      exact hAgree.elim
    | error e' => exact h

theorem represents_empty : Represents ∅ (fun _ _ _ => none) := fun _ => tiled_nil

theorem peaceful_lockStep {call : LockCall} {table : LockTable} (hPeace : LockTable.Peaceful table)
    (hRange : call.InRange) : LockTable.Peaceful (lockStep call table) := by
  unfold lockStep
  split
  · rename_i table' hExec
    cases call with
    | setlk key handle owner first last typ pid =>
      exact (LockTable.LockStep.set hRange hExec).peaceful hPeace
    | releaseHandle handle =>
      cases hExec
      exact (LockTable.LockStep.closed handle).peaceful hPeace
    | releaseOwner key owner =>
      cases hExec
      exact (LockTable.LockStep.released key owner).peaceful hPeace
  · exact hPeace

/-- After any calls the table is the map that the same calls make byte by byte. -/
theorem lockTable_is_byteMap (calls : List LockCall) (hRange : ∀ call ∈ calls, call.InRange) :
    let table := run lockStep calls ∅
    let bytes := run byteStep calls (fun _ _ _ => none)
    (∀ key o x g, bytes key o x = some g ↔ Granted (locksOf table key) o x g) ∧
    (∀ key, (locksOf table key).Pairwise BackendLock.Apart) ∧
    (∀ key x o o' g g', bytes key o x = some g → bytes key o' x = some g' → o ≠ o' →
      g.typ ≠ fWrlck) ∧
    (∀ call : LockCall, call.InRange → Agree (call.exec table) (call.onBytes bytes)) ∧
    (∀ (call : LockCall) e, call.exec table = .error e → lockStep call table = table) ∧
    (∀ key handle owner first last typ pid,
      getlk table key owner first last typ = .ok none ↔
        ∃ table', setlk table key handle owner first last typ pid = .ok table') ∧
    (∀ key owner first last typ (found : FileLock),
      getlk table key owner first last typ = .ok found →
        rangesOverlap found.first found.last first last = true ∧
        (found.typ = fWrlck ∨ typ = fWrlck) ∧ ∃ o handle, o ≠ owner ∧
          ∀ x, found.first ≤ x → x ≤ found.last →
            bytes key o x = some ⟨found.typ, found.pid, handle⟩) := by
  intro table bytes
  have h : Represents table bytes := run_related (fun call _ _ => represents_step call) hRange
    represents_empty
  have hPeace : LockTable.Peaceful table :=
    run_invariant (fun call s hs hC => peaceful_lockStep hs hC) (fun _ => peaceful_nil)
      (along_of_forall hRange)
  refine ⟨fun key => (h key).exact, fun key => (h key).apart, ?_, ?_, ?_, ?_, ?_⟩
  · intro key x o o' g g' hg hg' ho
    obtain ⟨lock, hl, hOwner, hx, rfl⟩ := ((h key).exact _ _ _).1 hg
    obtain ⟨lock', hl', hOwner', hx', rfl⟩ := ((h key).exact _ _ _).1 hg'
    exact (hPeace key).apart x o o' lock.typ lock'.typ ⟨lock, hl, hOwner, rfl, hx⟩
      ⟨lock', hl', hOwner', rfl, hx'⟩ ho
  · exact fun call hCall => LockCall.exec_agrees h hCall
  · intro call e hExec
    unfold lockStep
    rw [hExec]
  · exact fun key handle owner first last typ pid => getlk_eq_none_iff ..
  · exact fun key owner first last typ found hFound => getlk_eq_some h hFound

/-- A write lock on the whole file, split in the middle; both ends are at the limits. -/
theorem lockTable_is_byteMap_split :
    let calls : List LockCall :=
      [.setlk 1 10 7 0 u64Max fWrlck 3, .setlk 1 10 7 5 8 fUnlck 3, .setlk 1 11 8 6 6 fRdlck 4]
    locksOf (run lockStep calls ∅) 1 =
      [⟨10, 7, 0, 4, fWrlck, 3⟩, ⟨10, 7, 9, u64Max, fWrlck, 3⟩, ⟨11, 8, 6, 6, fRdlck, 4⟩] ∧
    run byteStep calls (fun _ _ _ => none) 1 8 6 = some ⟨fRdlck, 4, 11⟩ := by
  intro calls
  have hLocks : locksOf (run lockStep calls ∅) 1 =
      [⟨10, 7, 0, 4, fWrlck, 3⟩, ⟨10, 7, 9, u64Max, fWrlck, 3⟩, ⟨11, 8, 6, 6, fRdlck, 4⟩] := by
    decide +kernel
  refine ⟨hLocks, ((lockTable_is_byteMap calls (by decide +kernel)).1 1 8 6 _).2 ?_⟩
  rw [hLocks]
  exact ⟨⟨11, 8, 6, 6, fRdlck, 4⟩, by simp, rfl, ⟨le_rfl, le_rfl⟩, rfl⟩

end FabricFs.Server
