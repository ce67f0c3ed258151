import Mathlib.Data.List.DropRight
import FabricFs.Host.Names
import FabricFs.Lib.Runs

/-!
# The inode map of the file system service

`service/inode_map.rs` hands out the inode numbers that clients see. It keeps three
tables: the number of each known path, the host identity `(dev, ino)` last observed at
each path, and the number of each identity. `inodeFor` is called with the identity
observed at a path, `renamePath` and `removePath` after the storage has changed.

* `Identifies`: paths with one number have one recorded identity, and live paths with
  one recorded identity have one number.
* `identifies_run`: this holds in every state of a run whose steps are all `Steady`,
  that is, a mapped path is observed with a new identity only when no other path is
  left behind under its number or already carries that identity under another one.
* `hardlink_copy_up_shares_inode`: without that condition it fails. A copy-up of one of
  two hard links leaves two different files under one number.
-/

namespace FabricFs.Service

open Lib Dict List Option

/-- The bytes of a path string. -/
abbrev PathText : Type := List UInt8

/-- The path string `/`. -/
def rootText : PathText := [slash]

/-- The host identity of a file. -/
structure FileIdentity where
  dev : Nat
  ino : Nat
  deriving DecidableEq, Repr

structure InodeMap where
  byPath : Dict PathText Nat
  identityByPath : Dict PathText FileIdentity
  byIdentity : Dict FileIdentity Nat
  nextInode : Nat

/-! ## The operations -/

/-- `normalize_path`: a leading slash and no other slash at either end. -/
def normalizePath (path : PathText) : PathText :=
  if path = rootText then rootText
  else slash :: (path.dropWhile (· == slash)).rdropWhile (· == slash)

namespace InodeMap

def new : InodeMap where
  byPath := (∅ : Dict PathText Nat).insert rootText 1
  identityByPath := ∅
  byIdentity := ∅
  nextInode := 2

def allocateInode (m : InodeMap) : Nat × InodeMap :=
  (m.nextInode, { m with nextInode := max (min (m.nextInode + 1) u64Max) 2 })

/-- The old identity of the path is forgotten if no other path has it. -/
def setPathIdentity (m : InodeMap) (path : PathText) (inode : Nat) (identity : FileIdentity) :
    InodeMap :=
  let previous := m.identityByPath.lookup path
  let identities := m.identityByPath.insert path identity
  let byIdentity := match previous with
    | some previous =>
      if previous ≠ identity ∧ anyValue (· == previous) identities = false
      then m.byIdentity.erase previous else m.byIdentity
    | none => m.byIdentity
  { m with identityByPath := identities, byIdentity := byIdentity.insert identity inode }

def insertPath (m : InodeMap) (path : PathText) (inode : Nat) : InodeMap :=
  { m with byPath := m.byPath.insert path inode }

/-- A known path keeps its number; a new path of a known file gets the number of the file. -/
def inodeFor (m : InodeMap) (path : PathText) (identity : Option FileIdentity) : Nat × InodeMap :=
  let path := normalizePath path
  if path = rootText then
    match identity with
    | some identity => (1, m.setPathIdentity path 1 identity)
    | none => (1, m)
  else
    match identity with
    | some identity =>
      match m.byPath.lookup path with
      | some inode => (inode, m.setPathIdentity path inode identity)
      | none =>
        match m.byIdentity.lookup identity with
        | some inode => (inode, (m.insertPath path inode).setPathIdentity path inode identity)
        | none =>
          let (inode, m) := m.allocateInode
          (inode, (m.insertPath path inode).setPathIdentity path inode identity)
    | none =>
      match m.byPath.lookup path with
      | some inode => (inode, m)
      | none =>
        let (inode, m) := m.allocateInode
        (inode, m.insertPath path inode)

/-- The suffix of a path in the subtree of another, cut at a component boundary. -/
def subtreeSuffix (path cached : PathText) : Option PathText :=
  (stripPrefix path cached).filter (fun suffix => suffix.isEmpty || suffix.head? == some slash)

def retainLiveIdentities (m : InodeMap) : InodeMap :=
  { m with byIdentity :=
      retain (fun identity => anyValue (· == identity) m.identityByPath) m.byIdentity }

def removePath (m : InodeMap) (path : PathText) : InodeMap :=
  let path := normalizePath path
  let removed := m.byPath.keys.filter (fun cached => (subtreeSuffix path cached).isSome)
  let m := removed.foldl (fun m cached =>
    { m with byPath := m.byPath.erase cached,
             identityByPath := m.identityByPath.erase cached }) m
  m.retainLiveIdentities.insertPath rootText 1

/-- One round of the loop of `rename_path`: the entry of one path moves to its new path. -/
def moveEntry (m : InodeMap) (moved : PathText × Nat × PathText) : InodeMap :=
  let identity := m.identityByPath.lookup moved.1
  let identities := m.identityByPath.erase moved.1
  { m with
    byPath := (m.byPath.erase moved.1).insert moved.2.2 moved.2.1
    identityByPath := match identity with
      | some identity => identities.insert moved.2.2 identity
      | none => identities }

def movedEntries (m : InodeMap) (oldPath newPath : PathText) : List (PathText × Nat × PathText) :=
  m.byPath.entries.filterMap (fun e =>
    (subtreeSuffix oldPath e.1).map (fun suffix => (e.1, e.2, newPath ++ suffix)))

def renamePath (m : InodeMap) (oldPath newPath : PathText) : InodeMap :=
  let oldPath := normalizePath oldPath
  let newPath := normalizePath newPath
  let m := m.removePath newPath
  (m.movedEntries oldPath newPath).foldl moveEntry m

end InodeMap

/-- The calls the service makes. -/
inductive InodeOp where
  | inodeFor (path : PathText) (identity : Option FileIdentity)
  | renamePath (oldPath newPath : PathText)
  | removePath (path : PathText)

namespace InodeMap

def step : InodeOp → InodeMap → InodeMap
  | .inodeFor path identity, m => (m.inodeFor path identity).2
  | .renamePath oldPath newPath, m => m.renamePath oldPath newPath
  | .removePath path, m => m.removePath path

/-- Inode numbers identify files. -/
def Identifies (m : InodeMap) : Prop :=
  (∀ p q i, m.byPath.lookup p = some i → m.byPath.lookup q = some i →
    m.identityByPath.lookup p = m.identityByPath.lookup q) ∧
  (∀ p q i j identity, m.byPath.lookup p = some i → m.byPath.lookup q = some j →
    m.identityByPath.lookup p = some identity → m.identityByPath.lookup q = some identity →
    i = j)

/-! ## The invariant -/

/-- What the three tables say about each other. -/
structure Inv (m : InodeMap) : Prop where
  root : m.byPath.lookup rootText = some 1
  /-- A recorded identity belongs to a mapped path and has that path's number. -/
  known : ∀ p identity, m.identityByPath.lookup p = some identity →
    ∃ i, m.byPath.lookup p = some i ∧ m.byIdentity.lookup identity = some i
  /-- Only identities that some path carries have a number. -/
  live : ∀ identity i, m.byIdentity.lookup identity = some i →
    ∃ p, m.identityByPath.lookup p = some identity
  same : ∀ p q i, m.byPath.lookup p = some i → m.byPath.lookup q = some i →
    m.identityByPath.lookup p = m.identityByPath.lookup q

namespace Inv

variable {m : InodeMap}

variable {p : PathText}

theorem identifies (h : m.Inv) : m.Identifies := by
  refine ⟨h.same, ?_⟩
  intro p q i j identity hp hq hpi hqi
  obtain ⟨i', hi', hi⟩ := h.known p identity hpi
  obtain ⟨j', hj', hj⟩ := h.known q identity hqi
  rw [hp] at hi'
  rw [hq] at hj'
  rw [hi] at hj
  cases hi'
  cases hj'
  exact some.inj hj

theorem identity_none (h : m.Inv) (hp : m.byPath.lookup p = none) :
    m.identityByPath.lookup p = none := by
  cases hi : m.identityByPath.lookup p with
  | none => rfl
  | some identity =>
    obtain ⟨i, hpi, _⟩ := h.known p identity hi
    rw [hp] at hpi
    cases hpi

/-- A path with the number of an identity carries that identity. -/
theorem owner (h : m.Inv) {identity : FileIdentity} {i : Nat}
    (hid : m.byIdentity.lookup identity = some i) (hp : m.byPath.lookup p = some i) :
    m.identityByPath.lookup p = some identity := by
  obtain ⟨q, hq⟩ := h.live identity i hid
  obtain ⟨j, hqj, hidj⟩ := h.known q identity hq
  rw [hid] at hidj
  cases hidj
  rw [h.same p q i hp hqj, hq]

theorem root_ne (h : m.Inv) (hp : m.byPath.lookup p = none) : p ≠ rootText := by
  rintro rfl
  rw [h.root] at hp
  cases hp

end Inv

variable {m : InodeMap} {path newPath : PathText} {inode : Nat}

theorem inv_new : new.Inv := by
  refine ⟨AList.lookup_insert _, ?_, ?_, ?_⟩
  · intro p identity h
    simp [new] at h
  · intro identity i h
    simp [new] at h
  · intro p q i hp hq
    simp [new]

/-! ## Recording an identity -/

theorem lookup_setPathIdentity (m : InodeMap) (path : PathText) (inode : Nat)
    (identity : FileIdentity) (p : PathText) :
    (m.setPathIdentity path inode identity).identityByPath.lookup p =
      if p = path then some identity else m.identityByPath.lookup p := by
  simp only [setPathIdentity, lookup_insert_eq]

open Classical in
/-- An identity other than the recorded one keeps its number, unless it was the previous
identity of the path and no path carries it any more. -/
theorem byIdentity_setPathIdentity (m : InodeMap) (path : PathText) (inode : Nat)
    (identity other : FileIdentity) :
    (m.setPathIdentity path inode identity).byIdentity.lookup other =
      if other = identity then some inode
      else if m.identityByPath.lookup path = some other ∧
          ∀ q, q ≠ path → m.identityByPath.lookup q ≠ some other then none
      else m.byIdentity.lookup other := by
  unfold setPathIdentity
  simp only [lookup_insert_eq]
  by_cases ho : other = identity
  · rw [if_pos ho, if_pos ho]
  rw [if_neg ho, if_neg ho]
  cases hprev : m.identityByPath.lookup path with
  | none => simp
  | some previous =>
    simp only
    by_cases hop : other = previous
    · subst hop
      have hAny : anyValue (· == other) (m.identityByPath.insert path identity) = false ↔
          ∀ q, q ≠ path → m.identityByPath.lookup q ≠ some other := by
        rw [← Bool.not_eq_true, anyValue_iff]
        simp only [lookup_insert_eq, beq_iff_eq]
        constructor
        · intro h q hq hl
          exact h ⟨q, other, by rw [if_neg hq, hl], rfl⟩
        · rintro h ⟨q, v, hv, rfl⟩
          split at hv
          · exact ho (some.inj hv).symm
          · rename_i hq
            exact h q hq hv
      by_cases hlive : ∀ q, q ≠ path → m.identityByPath.lookup q ≠ some other
      · rw [if_pos ⟨ho, hAny.mpr hlive⟩, if_pos ⟨rfl, hlive⟩]
        exact AList.lookup_erase other _
      · rw [if_neg (fun h => hlive (hAny.mp h.2)), if_neg (fun h => hlive h.2)]
    · rw [if_neg (c := some previous = some other ∧ _) (fun h => hop (some.inj h.1).symm)]
      split
      · exact AList.lookup_erase_ne hop
      · rfl

/-- Every other path has the number exactly when it has the identity. -/
def ConsistentAt (m : InodeMap) (path : PathText) (inode : Nat) (identity : FileIdentity) :
    Prop :=
  ∀ e ∈ m.byPath.entries, e.1 ≠ path → (e.2 = inode ↔ m.identityByPath.lookup e.1 = some identity)

theorem consistentAt_iff {identity : FileIdentity} :
    m.ConsistentAt path inode identity ↔
      ∀ q j, q ≠ path → m.byPath.lookup q = some j →
        (j = inode ↔ m.identityByPath.lookup q = some identity) := by
  constructor
  · intro h q j hq hj
    exact h ⟨q, j⟩ (mem_entries_iff.mpr hj) hq
  · rintro h ⟨q, j⟩ he hq
    exact h q j hq (mem_entries_iff.mp he)

/-- Recording a consistent identity keeps the invariant, at a path that is mapped already
as well as at one that `m'` has just mapped. -/
theorem inv_record {m' : InodeMap} (h : m.Inv) {identity : FileIdentity}
    (hIds : m'.identityByPath = m.identityByPath) (hBy : m'.byIdentity = m.byIdentity)
    (hPaths : ∀ q, m'.byPath.lookup q = if q = path then some inode else m.byPath.lookup q)
    (hRoot : path = rootText → inode = 1) (hc : m.ConsistentAt path inode identity) :
    (m'.setPathIdentity path inode identity).Inv := by
  rw [consistentAt_iff] at hc
  have hPath : ∀ q, (m'.setPathIdentity path inode identity).byPath.lookup q =
      if q = path then some inode else m.byPath.lookup q := hPaths
  refine ⟨?_, ?_, ?_, ?_⟩
  · rw [hPath]
    split
    · rename_i hp
      rw [hRoot hp.symm]
    · exact h.root
  · intro p other hpo
    rw [lookup_setPathIdentity, hIds] at hpo
    rw [hPath, byIdentity_setPathIdentity, hIds, hBy]
    by_cases hpp : p = path
    · rw [if_pos hpp] at hpo
      cases hpo
      exact ⟨inode, by rw [if_pos hpp], by rw [if_pos rfl]⟩
    · rw [if_neg hpp] at hpo
      obtain ⟨i, hpi, hoi⟩ := h.known p other hpo
      refine ⟨i, by rw [if_neg hpp, hpi], ?_⟩
      split
      · rename_i ho
        subst ho
        rw [(hc p i hpp hpi).mpr hpo]
      · rw [if_neg (fun hd => hd.2 p hpp hpo), hoi]
  · intro other i hoi
    rw [byIdentity_setPathIdentity, hIds, hBy] at hoi
    simp only [lookup_setPathIdentity, hIds]
    split at hoi
    · rename_i ho
      exact ⟨path, by rw [if_pos rfl, ho]⟩
    · split at hoi
      · cases hoi
      · rename_i hlive
        obtain ⟨p, hp⟩ := h.live other i hoi
        by_cases hpp : p = path
        · -- the path gives up `other`, whose entry stays: another path carries it
          subst hpp
          have hq : ∃ q, q ≠ p ∧ m.identityByPath.lookup q = some other := by
            by_contra hno
            exact hlive ⟨hp, fun q hq hqo => hno ⟨q, hq, hqo⟩⟩
          obtain ⟨q, hq, hqo⟩ := hq
          exact ⟨q, by rw [if_neg hq, hqo]⟩
        · exact ⟨p, by rw [if_neg hpp, hp]⟩
  · intro p q i hpi hqi
    rw [hPath] at hpi hqi
    rw [lookup_setPathIdentity, lookup_setPathIdentity, hIds]
    by_cases hpp : p = path <;> by_cases hqq : q = path
    · rw [if_pos hpp, if_pos hqq]
    · rw [if_pos hpp] at hpi
      rw [if_neg hqq] at hqi
      cases hpi
      rw [if_pos hpp, if_neg hqq, (hc q inode hqq hqi).mp rfl]
    · rw [if_neg hpp] at hpi
      rw [if_pos hqq] at hqi
      cases hqi
      rw [if_pos hqq, if_neg hpp, (hc p inode hpp hpi).mp rfl]
    · rw [if_neg hpp] at hpi ⊢
      rw [if_neg hqq] at hqi ⊢
      exact h.same p q i hpi hqi

/-! ## Handing out a number -/

/-- The next number is not in use. Only the saturated counter repeats a number. -/
def Fresh (m : InodeMap) : Prop :=
  (∀ e ∈ m.byPath.entries, e.2 ≠ m.nextInode) ∧ ∀ e ∈ m.byIdentity.entries, e.2 ≠ m.nextInode

theorem Fresh.byPath_ne (h : m.Fresh) {p : PathText} {i : Nat} (hp : m.byPath.lookup p = some i) :
    i ≠ m.nextInode :=
  h.1 ⟨p, i⟩ (mem_entries_iff.mpr hp)

theorem lookup_insertPath (m : InodeMap) (path : PathText) (inode : Nat) (q : PathText) :
    (m.insertPath path inode).byPath.lookup q =
      if q = path then some inode else m.byPath.lookup q :=
  lookup_insert_eq _ _ _ _

/-- A path without an identity may take a number that no path has. -/
theorem inv_insertPath (h : m.Inv) (hp : m.byPath.lookup path = none)
    (hNew : ∀ q, m.byPath.lookup q ≠ some inode) :
    (m.insertPath path inode).Inv := by
  have hRoot := h.root_ne hp
  refine ⟨?_, ?_, h.live, ?_⟩
  · rw [lookup_insertPath, if_neg hRoot.symm]
    exact h.root
  · intro p identity hpi
    obtain ⟨i, hi, hid⟩ := h.known p identity hpi
    have hpp : p ≠ path := by
      rintro rfl
      rw [hp] at hi
      cases hi
    exact ⟨i, by rw [lookup_insertPath, if_neg hpp, hi], hid⟩
  · intro p q i hpi hqi
    rw [lookup_insertPath] at hpi hqi
    change m.identityByPath.lookup p = m.identityByPath.lookup q
    by_cases hpp : p = path <;> by_cases hqq : q = path
    · rw [hpp, hqq]
    · rw [if_pos hpp] at hpi
      rw [if_neg hqq] at hqi
      cases hpi
      exact absurd hqi (hNew q)
    · rw [if_neg hpp] at hpi
      rw [if_pos hqq] at hqi
      cases hqi
      exact absurd hpi (hNew p)
    · rw [if_neg hpp] at hpi
      rw [if_neg hqq] at hqi
      exact h.same p q i hpi hqi

/-- What `inodeFor` needs: a mapped path keeps its number, so the observed identity has
to be consistent with it; an unmapped path of an unknown identity needs a fresh one. -/
def Observable (m : InodeMap) (path : PathText) : Option FileIdentity → Prop
  | some identity =>
    match m.byPath.lookup path with
    | some inode => m.ConsistentAt path inode identity
    | none => m.byIdentity.lookup identity = none → m.Fresh
  | none => m.byPath.lookup path = none → m.Fresh

theorem inv_inodeFor (h : m.Inv) {identity : Option FileIdentity}
    (hc : m.Observable (normalizePath path) identity) :
    (m.inodeFor path identity).2.Inv := by
  unfold inodeFor
  generalize normalizePath path = p at hc
  have hKeep : ∀ {i}, m.byPath.lookup p = some i → ∀ q,
      m.byPath.lookup q = if q = p then some i else m.byPath.lookup q := by
    intro i hi q
    split
    · rename_i hq
      rw [hq, hi]
    · rfl
  have hMapped : ∀ {i identity}, m.byPath.lookup p = some i → m.ConsistentAt p i identity →
      (m.setPathIdentity p i identity).Inv := by
    intro i identity hi hcons
    refine inv_record h rfl rfl (hKeep hi) ?_ hcons
    rintro rfl
    exact some.inj (hi.symm.trans h.root)
  by_cases hp : p = rootText
  · subst hp
    cases identity with
    | none => simpa using h
    | some identity =>
      simp only [Observable, h.root] at hc
      simpa using hMapped h.root hc
  simp only [if_neg hp]
  cases identity with
  | some identity =>
    cases hlook : m.byPath.lookup p with
    | some inode =>
      simp only [Observable, hlook] at hc
      exact hMapped hlook hc
    | none =>
      simp only [Observable, hlook] at hc
      cases hid : m.byIdentity.lookup identity with
      | some inode =>
        simp only [hid]
        refine inv_record h ?_ ?_ (lookup_insertPath m p inode) (fun he => absurd he hp) ?_
        · rfl
        · rfl
        rw [consistentAt_iff]
        intro q j hq hj
        constructor
        · rintro rfl
          exact h.owner hid hj
        · intro hqid
          obtain ⟨j', hj', hidj⟩ := h.known q identity hqid
          rw [hj] at hj'
          rw [hid] at hidj
          exact some.inj (hj'.trans hidj.symm)
      | none =>
        have hFresh := hc hid
        simp only [hid]
        refine inv_record h ?_ ?_ (lookup_insertPath m.allocateInode.2 p m.nextInode)
          (fun he => absurd he hp) ?_
        · rfl
        · rfl
        rw [consistentAt_iff]
        intro q j hq hj
        constructor
        · intro he
          exact absurd he (hFresh.byPath_ne hj)
        · intro hqid
          obtain ⟨j', -, hidj⟩ := h.known q identity hqid
          rw [hid] at hidj
          cases hidj
  | none =>
    cases hlook : m.byPath.lookup p with
    | some inode => exact h
    | none =>
      have hFresh : m.Fresh := hc hlook
      have hAlloc : m.allocateInode.2.Inv := ⟨h.root, h.known, h.live, h.same⟩
      exact inv_insertPath hAlloc hlook (fun q hq => hFresh.byPath_ne hq rfl)

/-! ## Removing and renaming -/

theorem normalizePath_eq_cons (path : PathText) : ∃ rest, normalizePath path = slash :: rest := by
  unfold normalizePath
  split
  · exact ⟨[], rfl⟩
  · exact ⟨_, rfl⟩

theorem subtreeSuffix_eq_some {cached suffix : PathText}
    (h : subtreeSuffix path cached = some suffix) : cached = path ++ suffix := by
  unfold subtreeSuffix at h
  exact stripPrefix_eq_some.mp (filter_eq_some_iff.mp h).1

theorem subtreeSuffix_append (path : PathText) {cached suffix : PathText}
    (h : subtreeSuffix path cached = some suffix) (newPath : PathText) :
    subtreeSuffix newPath (newPath ++ suffix) = some suffix := by
  unfold subtreeSuffix at h ⊢
  exact filter_eq_some_iff.mpr
    ⟨stripPrefix_eq_some.mpr rfl, (filter_eq_some_iff.mp h).2⟩

theorem subtreeSuffix_root (hp : normalizePath path ≠ rootText) :
    subtreeSuffix (normalizePath path) rootText = none := by
  cases hs : subtreeSuffix (normalizePath path) rootText with
  | none => rfl
  | some suffix =>
    have he := subtreeSuffix_eq_some hs
    obtain ⟨rest, hrest⟩ := normalizePath_eq_cons path
    rw [hrest] at he hp
    have hnil := (cons.inj he).2
    rw [(append_eq_nil_iff.mp hnil.symm).1] at hp
    exact absurd rfl hp

theorem lookup_foldl_erase (removed : List PathText) (m : InodeMap) :
    let m' := removed.foldl (fun m cached =>
      { m with byPath := m.byPath.erase cached,
               identityByPath := m.identityByPath.erase cached }) m
    (∀ q, m'.byPath.lookup q = if q ∈ removed then none else m.byPath.lookup q) ∧
    (∀ q, m'.identityByPath.lookup q =
      if q ∈ removed then none else m.identityByPath.lookup q) ∧
    m'.byIdentity = m.byIdentity := by
  induction removed generalizing m with
  | nil => simp
  | cons cached removed ih =>
    obtain ⟨hPath, hId, hBy⟩ := ih { m with
      byPath := m.byPath.erase cached, identityByPath := m.identityByPath.erase cached }
    refine ⟨?_, ?_, hBy⟩
    · intro q
      rw [foldl_cons, hPath, lookup_erase_eq]
      by_cases hq : q = cached <;> by_cases hr : q ∈ removed <;> simp [hq, hr]
    · intro q
      rw [foldl_cons, hId, lookup_erase_eq]
      by_cases hq : q = cached <;> by_cases hr : q ∈ removed <;> simp [hq, hr]

/-- `removePath` forgets the subtree and nothing else. -/
theorem lookup_removePath (h : m.Inv) (hp : normalizePath path ≠ rootText) (q : PathText) :
    (m.removePath path).byPath.lookup q =
        (if (subtreeSuffix (normalizePath path) q).isSome then none else m.byPath.lookup q) ∧
      (m.removePath path).identityByPath.lookup q =
        (if (subtreeSuffix (normalizePath path) q).isSome then none
          else m.identityByPath.lookup q) := by
  obtain ⟨hPath, hId, -⟩ := lookup_foldl_erase
    (m.byPath.keys.filter (fun cached =>
      (subtreeSuffix (normalizePath path) cached).isSome)) m
  have hMem : m.byPath.lookup q ≠ none → q ∈ m.byPath.keys := by
    intro hq
    by_contra hn
    exact hq (AList.lookup_eq_none.mpr hn)
  constructor
  · change AList.lookup q (AList.insert rootText 1 _) = _
    rw [lookup_insert_eq]
    split
    · rename_i hq
      rw [hq, subtreeSuffix_root hp, h.root]
      rfl
    · refine (hPath q).trans ?_
      by_cases hs : (subtreeSuffix (normalizePath path) q).isSome
      · by_cases hq : m.byPath.lookup q = none
        · simp [hs, hq]
        · simp [hs, hMem hq]
      · simp [hs]
  · refine (hId q).trans ?_
    by_cases hs : (subtreeSuffix (normalizePath path) q).isSome
    · by_cases hq : m.byPath.lookup q = none
      · simp [hs, h.identity_none hq]
      · simp [hs, hMem hq]
    · simp [hs]

theorem byIdentity_removePath (m : InodeMap) (path : PathText) (identity : FileIdentity) :
    (m.removePath path).byIdentity.lookup identity =
      if anyValue (· == identity) (m.removePath path).identityByPath
      then m.byIdentity.lookup identity else none := by
  have hBy := (lookup_foldl_erase (m.byPath.keys.filter (fun cached =>
    (subtreeSuffix (normalizePath path) cached).isSome)) m).2.2
  refine (lookup_retain _ _ identity).trans ?_
  rw [hBy]
  rfl

theorem inv_removePath (h : m.Inv) (hp : normalizePath path ≠ rootText) :
    (m.removePath path).Inv := by
  have hPath := fun q => (lookup_removePath h hp q).1
  have hId := fun q => (lookup_removePath h hp q).2
  have hOld : ∀ {q i}, (m.removePath path).byPath.lookup q = some i →
      (subtreeSuffix (normalizePath path) q).isSome = false ∧ m.byPath.lookup q = some i := by
    intro q i hq
    rw [hPath] at hq
    split at hq
    · cases hq
    · rename_i hs
      exact ⟨by simpa using hs, hq⟩
  refine ⟨?_, ?_, ?_, ?_⟩
  · rw [hPath, subtreeSuffix_root hp]
    exact h.root
  · intro p identity hpi
    have hAny : anyValue (· == identity) (m.removePath path).identityByPath = true :=
      anyValue_iff.mpr ⟨p, identity, hpi, beq_self_eq_true identity⟩
    rw [hId] at hpi
    rw [byIdentity_removePath, if_pos hAny, hPath]
    split at hpi
    · cases hpi
    · rename_i hs
      rw [if_neg hs]
      exact h.known p identity hpi
  · intro identity i hid
    rw [byIdentity_removePath] at hid
    split at hid
    · rename_i hAny
      obtain ⟨p, v, hv, he⟩ := anyValue_iff.mp hAny
      rw [beq_iff_eq] at he
      exact ⟨p, by rw [hv, he]⟩
    · cases hid
  · intro p q i hpi hqi
    obtain ⟨hps, hpo⟩ := hOld hpi
    obtain ⟨hqs, hqo⟩ := hOld hqi
    rw [hId, hId, hps, hqs]
    exact h.same p q i hpo hqo

/-- One round of the loop of `renamePath` moves all that the map says of the old path to
the new one. -/
theorem lookup_moveEntry (h : m.Inv) {old : PathText} (hOld : m.byPath.lookup old = some inode)
    (hNew : m.byPath.lookup newPath = none) (q : PathText) :
    (m.moveEntry (old, inode, newPath)).byPath.lookup q =
        (if q = old then none else m.byPath.lookup (if q = newPath then old else q)) ∧
      (m.moveEntry (old, inode, newPath)).identityByPath.lookup q =
        (if q = old then none
          else m.identityByPath.lookup (if q = newPath then old else q)) := by
  have hne : newPath ≠ old := by
    rintro rfl
    rw [hOld] at hNew
    cases hNew
  constructor
  · simp only [moveEntry, lookup_insert_eq, lookup_erase_eq]
    by_cases hq : q = newPath
    · rw [if_pos hq, if_neg (hq ▸ hne), if_pos hq, hOld]
    · rw [if_neg hq, if_neg hq]
  · simp only [moveEntry]
    cases hid : m.identityByPath.lookup old with
    | none =>
      simp only [lookup_erase_eq]
      by_cases hq : q = newPath
      · rw [if_neg (hq ▸ hne), if_neg (hq ▸ hne), if_pos hq, hid, hq, h.identity_none hNew]
      · rw [if_neg hq]
    | some identity =>
      simp only [lookup_insert_eq, lookup_erase_eq]
      by_cases hq : q = newPath
      · rw [if_pos hq, if_neg (hq ▸ hne), if_pos hq, hid]
      · rw [if_neg hq, if_neg hq]

theorem inv_moveEntry (h : m.Inv) {old : PathText} (hRoot : old ≠ rootText)
    (hOld : m.byPath.lookup old = some inode) (hNew : m.byPath.lookup newPath = none) :
    (m.moveEntry (old, inode, newPath)).Inv := by
  have hPath := fun q => (lookup_moveEntry h hOld hNew q).1
  have hId := fun q => (lookup_moveEntry h hOld hNew q).2
  refine ⟨?_, ?_, ?_, ?_⟩
  · rw [hPath, if_neg hRoot.symm, if_neg (h.root_ne hNew).symm]
    exact h.root
  · intro p identity hp
    rw [hId] at hp
    rw [hPath]
    split at hp
    · cases hp
    · rename_i hpo
      rw [if_neg hpo]
      exact h.known _ identity hp
  · intro identity i hid
    obtain ⟨p, hp⟩ := h.live identity i hid
    -- the carrier of the identity is either the moved path or one that stays
    by_cases hpo : p = old
    · refine ⟨newPath, ?_⟩
      have hne : newPath ≠ old := by
        rintro rfl
        rw [hOld] at hNew
        cases hNew
      rw [hId, if_neg hne, if_pos rfl, ← hpo, hp]
    · refine ⟨p, ?_⟩
      have hpn : p ≠ newPath := by
        rintro rfl
        rw [h.identity_none hNew] at hp
        cases hp
      rw [hId, if_neg hpo, if_neg hpn, hp]
  · intro p q i hp hq
    rw [hPath] at hp hq
    rw [hId, hId]
    split at hp
    · cases hp
    · split at hq
      · cases hq
      · rename_i hpo hqo
        rw [if_neg hpo, if_neg hqo]
        exact h.same _ _ i hp hq

/-- The loop of `renamePath`. The entries still to be moved are where `movedEntries` saw
them and their targets are still free. -/
theorem inv_foldl_moveEntry {moved : List (PathText × Nat × PathText)} (h : m.Inv)
    (hRoot : ∀ e ∈ moved, e.1 ≠ rootText) (hOld : ∀ e ∈ moved, m.byPath.lookup e.1 = some e.2.1)
    (hNew : ∀ e ∈ moved, m.byPath.lookup e.2.2 = none)
    (hOlds : moved.Pairwise (fun a b => a.1 ≠ b.1))
    (hNews : moved.Pairwise (fun a b => a.2.2 ≠ b.2.2)) :
    (moved.foldl moveEntry m).Inv := by
  induction moved generalizing m with
  | nil => exact h
  | cons e moved ih =>
    obtain ⟨old, inode, newPath⟩ := e
    have hOldE := hOld _ mem_cons_self
    have hNewE := hNew _ mem_cons_self
    have hPath := fun q => (lookup_moveEntry h hOldE hNewE q).1
    rw [pairwise_cons] at hOlds hNews
    refine ih (inv_moveEntry h (hRoot _ mem_cons_self) hOldE hNewE)
      (fun e he => hRoot e (mem_cons_of_mem _ he)) ?_ ?_ hOlds.2 hNews.2
    · intro e he
      have hOldE' := hOld e (mem_cons_of_mem _ he)
      have hne : e.1 ≠ newPath := by
        intro heq
        rw [heq, hNewE] at hOldE'
        cases hOldE'
      rw [hPath, if_neg (hOlds.1 e he).symm, if_neg hne, hOldE']
    · intro e he
      have hNewE' := hNew e (mem_cons_of_mem _ he)
      have hne : e.2.2 ≠ old := by
        intro heq
        rw [heq, hOldE] at hNewE'
        cases hNewE'
      rw [hPath, if_neg hne, if_neg (hNews.1 e he).symm, hNewE']

theorem mem_movedEntries {oldPath : PathText} {e : PathText × Nat × PathText}
    (he : e ∈ m.movedEntries oldPath newPath) :
    m.byPath.lookup e.1 = some e.2.1 ∧
      ∃ suffix, subtreeSuffix oldPath e.1 = some suffix ∧ e.2.2 = newPath ++ suffix := by
  simp only [movedEntries, mem_filterMap, map_eq_some_iff] at he
  obtain ⟨⟨p, i⟩, hmem, suffix, hs, rfl⟩ := he
  exact ⟨mem_entries_iff.mp hmem, suffix, hs, rfl⟩

theorem movedEntries_pairwise (m : InodeMap) (oldPath newPath : PathText) :
    (m.movedEntries oldPath newPath).Pairwise (fun a b => a.1 ≠ b.1 ∧ a.2.2 ≠ b.2.2) := by
  have hKeys : m.byPath.entries.Pairwise (fun a b => a.1 ≠ b.1) :=
    nodupKeys_iff_pairwise.mp m.byPath.nodupKeys
  refine List.Pairwise.filterMap _ ?_ hKeys
  intro a a' hne b hb b' hb'
  simp only [map_eq_some_iff] at hb hb'
  obtain ⟨suffix, hs, rfl⟩ := hb
  obtain ⟨suffix', hs', rfl⟩ := hb'
  refine ⟨hne, ?_⟩
  intro he
  apply hne
  rw [subtreeSuffix_eq_some hs, subtreeSuffix_eq_some hs', append_cancel_left he]

theorem normalizePath_idem (path : PathText) :
    normalizePath (normalizePath path) = normalizePath path := by
  by_cases hp : path = rootText
  · simp [normalizePath, hp]
  unfold normalizePath
  rw [if_neg hp]
  generalize hd : path.dropWhile (· == slash) = dropped
  by_cases ht : dropped.rdropWhile (· == slash) = []
  · rw [ht]
    rfl
  have hne : slash :: dropped.rdropWhile (· == slash) ≠ rootText := by
    intro he
    exact ht (cons.inj he).2
  rw [if_neg hne]
  -- the first byte that is left after the leading slashes survives the cut at the end
  have hHead : ((dropped.rdropWhile (· == slash)).head ht == slash) = false := by
    have hdne : dropped ≠ [] := by
      rintro rfl
      simp at ht
    have hpre := rdropWhile_prefix (· == slash) dropped
    rw [hpre.head ht]
    subst hd
    exact head_dropWhile_not (· == slash) hdne
  congr 1
  have hDrop : List.dropWhile (· == slash) (slash :: dropped.rdropWhile (· == slash)) =
      dropped.rdropWhile (· == slash) := by
    rw [dropWhile_cons_of_pos (by simp)]
    refine dropWhile_eq_self_iff.mpr ?_
    intro hl
    rw [← head_eq_getElem ht, hHead]
    exact Bool.false_ne_true
  rw [hDrop]
  exact rdropWhile_idempotent _ _

theorem inv_renamePath (h : m.Inv) {oldPath : PathText} (hOld : normalizePath oldPath ≠ rootText)
    (hNew : normalizePath newPath ≠ rootText) :
    (m.renamePath oldPath newPath).Inv := by
  have hNew' : normalizePath (normalizePath newPath) ≠ rootText := by
    rw [normalizePath_idem]
    exact hNew
  have hRemoved := inv_removePath h hNew'
  have hPairs := movedEntries_pairwise (m.removePath (normalizePath newPath))
    (normalizePath oldPath) (normalizePath newPath)
  refine inv_foldl_moveEntry hRemoved ?_ (fun e he => (mem_movedEntries he).1) ?_
    (hPairs.imp And.left) (hPairs.imp And.right)
  · intro e he hRoot
    obtain ⟨-, suffix, hs, -⟩ := mem_movedEntries he
    rw [hRoot, subtreeSuffix_root hOld] at hs
    cases hs
  · intro e he
    obtain ⟨-, suffix, hs, hTarget⟩ := mem_movedEntries he
    rw [(lookup_removePath h hNew' _).1, normalizePath_idem, hTarget, subtreeSuffix_append _ hs]
    rfl

/-! ## Runs -/

instance (m : InodeMap) (path : PathText) (inode : Nat) (identity : FileIdentity) :
    Decidable (m.ConsistentAt path inode identity) :=
  inferInstanceAs (Decidable (∀ e ∈ m.byPath.entries, _))

instance (m : InodeMap) : Decidable m.Fresh :=
  inferInstanceAs (Decidable (_ ∧ _))

instance (m : InodeMap) (path : PathText) (identity : Option FileIdentity) :
    Decidable (m.Observable path identity) :=
  match identity with
  | some identity =>
    match h : m.byPath.lookup path with
    | some inode => decidable_of_iff (m.ConsistentAt path inode identity) (by
        simp only [Observable, h])
    | none => decidable_of_iff (m.byIdentity.lookup identity = none → m.Fresh) (by
        simp only [Observable, h])
  | none => inferInstanceAs (Decidable (_ → _))

/-- The condition on one call. The service removes and renames only paths that are not
the root, which the protocol refuses. -/
def Steady : InodeOp → InodeMap → Prop
  | .inodeFor path identity, m => m.Observable (normalizePath path) identity
  | .renamePath oldPath newPath, _ =>
    normalizePath oldPath ≠ rootText ∧ normalizePath newPath ≠ rootText
  | .removePath path, _ => normalizePath path ≠ rootText

instance (op : InodeOp) (m : InodeMap) : Decidable (Steady op m) :=
  match op with
  | .inodeFor path identity =>
    inferInstanceAs (Decidable (m.Observable (normalizePath path) identity))
  | .renamePath _ _ => inferInstanceAs (Decidable (_ ∧ _))
  | .removePath _ => inferInstanceAs (Decidable (_ ≠ _))

theorem inv_step (op : InodeOp) (m : InodeMap) (h : m.Inv) (hc : Steady op m) :
    (step op m).Inv := by
  cases op with
  | inodeFor path identity => exact inv_inodeFor h hc
  | renamePath oldPath newPath => exact inv_renamePath h hc.1 hc.2
  | removePath path => exact inv_removePath h hc

/-- Inode numbers identify files after every run of steady calls. -/
theorem identifies_run (ops : List InodeOp) (hc : Runs.Along step Steady ops new) :
    (Runs.run step ops new).Identifies :=
  (Runs.run_invariant inv_step inv_new hc).identifies

/-- The path string of a one-byte name. -/
def shortPath (name : UInt8) : PathText := [slash, name]

/-- A file is copied up while it has one path, linked, moved and removed: each call is
steady, and the two paths of the copy keep one number. -/
theorem identifies_run_of_copy_up :
    let lower : FileIdentity := ⟨1, 10⟩
    let cow : FileIdentity := ⟨2, 20⟩
    let ops := [InodeOp.inodeFor (shortPath 97) (some lower),
      .inodeFor (shortPath 97) (some cow), .inodeFor (shortPath 98) (some cow),
      .renamePath (shortPath 97) (shortPath 99), .inodeFor (shortPath 97) (some lower),
      .removePath (shortPath 98)]
    Runs.Along step Steady ops new ∧ (Runs.run step ops new).Identifies := by
  refine ⟨?_, identifies_run _ ?_⟩ <;> decide +kernel

/-- Two hard links are observed, then one of them is copied up. Both paths keep the
number 2, for two different files. -/
theorem hardlink_copy_up_shares_inode :
    let lower : FileIdentity := ⟨1, 10⟩
    let cow : FileIdentity := ⟨2, 20⟩
    let m := Runs.run step [.inodeFor (shortPath 97) (some lower),
      .inodeFor (shortPath 98) (some lower), .inodeFor (shortPath 97) (some cow)] new
    m.byPath.lookup (shortPath 97) = some 2 ∧ m.byPath.lookup (shortPath 98) = some 2 ∧
      m.identityByPath.lookup (shortPath 97) = some cow ∧
      m.identityByPath.lookup (shortPath 98) = some lower ∧ ¬ m.Identifies := by
  intro lower cow m
  have ha : m.byPath.lookup (shortPath 97) = some 2 := by decide +kernel
  have hb : m.byPath.lookup (shortPath 98) = some 2 := by decide +kernel
  have hia : m.identityByPath.lookup (shortPath 97) = some cow := by decide +kernel
  have hib : m.identityByPath.lookup (shortPath 98) = some lower := by decide +kernel
  refine ⟨ha, hb, hia, hib, ?_⟩
  intro h
  have hSame := h.1 _ _ 2 ha hb
  rw [hia, hib] at hSame
  revert hSame
  decide

end InodeMap

end FabricFs.Service
