import FabricFs.Lib.Runs
import FabricFs.Overlay.Samples
import FabricFs.Overlay.Rules

/-!
# Reading a directory in pages

The kernel reads a directory with several calls and resumes at the offset of the last entry
it accepted. The offset is a position in the listing, which the server computes anew for
every call from two host directories: first the entries of the copy-on-write directory, then
those of the backing directory that are not among them (`list_dir`, `service.rs`,
`reply.rs`).

* `listDir_names`: the names of a listing, as a function of the host file system.
* `fuseReaddir_spec`: a reply is a segment of the listing behind `.` and `..`, and the offsets
  count on.
* `readdir_lists_once`: a stream in which no other operation moves an entry between the host
  directories lists every visible name once.
* `readdir_repeats_and_skips`: a file is copied up between two calls; one name is listed twice
  and the copied file never.
-/

namespace FabricFs.Overlay

open Lib Lib.Prog Server List

/-! ## The names of a listing -/

/-- The directory that one side of the overlay has, through a link at the end of its path. -/
def sideDir (env : Env) (fs : HostFs) (loc : Option Loc) : Option Loc :=
  (loc.filter fun loc => (fs.get loc).isSome).bind fun loc => (follow env fs loc).toOption

def sideIsLink (fs : HostFs) (loc : Option Loc) : Bool :=
  (loc.bind fs.get).any fun node => node.kind == .symlink

/-- The decoded names of a host directory that no tombstone hides. -/
def shownIn (env : Env) (fs : HostFs) (rel : Path) : Option Loc → List Name
  | none => []
  | some dir => (((fs.tree dir.root).childNames dir.path).map toStringLossy).filter fun name =>
      !isTombstoned env fs (rel ++ [name])

def upperNames (env : Env) (fs : HostFs) (rel : Path) : List Name :=
  shownIn env fs rel (sideDir env fs (overlayPath env rel))

/-- A link in the copy-on-write tree hides the backing directory. -/
def lowerNames (env : Env) (fs : HostFs) (rel : Path) : List Name :=
  if sideIsLink fs (overlayPath env rel) then []
  else shownIn env fs rel (sideDir env fs (backingPath env rel))

/-- The names in the order of `list_dir`. -/
def listedNames (env : Env) (fs : HostFs) (rel : Path) : List Name :=
  upperNames env fs rel ++
    (lowerNames env fs rel).filter fun name => !(upperNames env fs rel).contains name

def VisibleIn (env : Env) (fs : HostFs) (rel : Path) (name : Name) : Prop :=
  name ∈ upperNames env fs rel ∨ name ∈ lowerNames env fs rel

theorem mem_listedNames {env : Env} {fs : HostFs} {rel : Path} {name : Name} :
    name ∈ listedNames env fs rel ↔ VisibleIn env fs rel name := by
  simp only [listedNames, VisibleIn, mem_append, mem_filter]
  by_cases hUpper : name ∈ upperNames env fs rel <;> simp [hUpper]

theorem follow_idem {env : Env} {fs : HostFs} {loc dest : Loc}
    (h : follow env fs loc = .ok dest) : follow env fs dest = .ok dest := by
  obtain ⟨node, hGet, hKind⟩ := followAux_ok h
  exact follow_of_not_symlink hGet hKind

theorem dirViewPath_ok {loc dir : Loc} {isLink : Bool} {env : Env} {w w' : World}
    (h : dirViewPath loc env w = (.ok (dir, isLink), w')) :
    w'.fs = w.fs ∧ follow env w.fs loc = .ok dir ∧ isLink = sideIsLink w.fs (some loc) := by
  obtain ⟨linkMeta, w₁, hMeta, hRun⟩ := bind_ok h
  obtain ⟨hLookup, rfl⟩ := query_ok hMeta
  obtain ⟨node, hNode, rfl⟩ := map_eq_ok.mp hLookup
  have hGet := (HostFs.lookup_eq_ok _).mp hNode
  have hKind : (w.fs.metaOf node).kind = node.kind := rfl
  rw [hKind] at hRun
  split at hRun
  next hLink =>
    obtain ⟨info, w₂, hInfo, hRun₁⟩ := bind_ok hRun
    obtain ⟨u, w₃, hEnsure, hRun₂⟩ := bind_ok hRun₁
    obtain ⟨dest, w₄, hDest, hRun₃⟩ := bind_ok hRun₂
    obtain ⟨-, rfl⟩ := query_ok hInfo
    obtain ⟨-, rfl⟩ := ensure_ok hEnsure
    obtain ⟨hFollow, rfl⟩ := query_ok hDest
    cases hRun₃
    exact ⟨rfl, hFollow, by simp [sideIsLink, hGet, hLink]⟩
  next hLink =>
    obtain ⟨u, w₂, hEnsure, hRun₁⟩ := bind_ok hRun
    obtain ⟨-, rfl⟩ := ensure_ok hEnsure
    cases hRun₁
    exact ⟨rfl, follow_of_not_symlink hGet hLink, by simp [sideIsLink, hGet, hLink]⟩

theorem dirSide_ok {loc : Option Loc} {side : Option (Loc × Bool)} {env : Env} {w w' : World}
    (h : dirSide loc env w = (.ok side, w')) :
    w'.fs = w.fs ∧ side.map (·.1) = sideDir env w.fs loc ∧
      side.any (·.2) = sideIsLink w.fs loc := by
  cases loc with
  | none =>
    cases h
    exact ⟨rfl, rfl, rfl⟩
  | some loc =>
    rw [dirSide, nodeExists, probe_bind_run] at h
    split at h
    next hPresent =>
      obtain ⟨⟨dir, isLink⟩, w₁, hView, hRun⟩ := bind_ok h
      cases hRun
      obtain ⟨hFs, hFollow, rfl⟩ := dirViewPath_ok hView
      refine ⟨hFs, ?_, rfl⟩
      simp [sideDir, Option.filter, hPresent, hFollow, Except.toOption]
    next hAbsent =>
      cases h
      have hNone : w.fs.get loc = none := by simpa using hAbsent
      simp [sideDir, sideIsLink, Option.filter, hNone]

/-- The two directories of a view are those of the host. -/
theorem resolveDir_ok {rel : Path} {view : DirView} {env : Env} {w w' : World}
    (h : resolveDir rel env w = (.ok view, w')) :
    w'.fs = w.fs ∧ view.overlay = sideDir env w.fs (overlayPath env rel) ∧
      view.backing = if sideIsLink w.fs (overlayPath env rel) then none
        else sideDir env w.fs (backingPath env rel) := by
  rw [resolveDir, ask_bind_run, probe_bind_run] at h
  obtain ⟨u, w₁, hEnsure, hRun⟩ := bind_ok h
  obtain ⟨-, hSame⟩ := ensure_ok hEnsure
  subst w₁
  obtain ⟨overlay, w₂, hOverlay, hRun₁⟩ := bind_ok hRun
  obtain ⟨hFs, hDir, hLink⟩ := dirSide_ok hOverlay
  split at hRun₁
  next hIsLink =>
    cases hRun₁
    rw [← hLink, if_pos hIsLink]
    exact ⟨hFs, hDir, rfl⟩
  next hNoLink =>
    obtain ⟨backing, w₃, hBacking, hRun₂⟩ := bind_ok hRun₁
    obtain ⟨hFs₁, hDir₁, -⟩ := dirSide_ok hBacking
    obtain ⟨u, w₄, hSome, hRun₃⟩ := bind_ok hRun₂
    obtain ⟨-, hSame⟩ := ensure_ok hSome
    subst w₄
    cases hRun₃
    rw [← hLink, if_neg hNoLink]
    exact ⟨hFs₁.trans hFs, hDir, hDir₁.trans (by rw [hFs])⟩

theorem listEntries_ok {rel : Path} {dir : Loc} {seen names : List Name}
    {entries : List (Name × Meta)} {env : Env} {w w' : World}
    (h : listEntries rel dir seen names env w = (.ok entries, w')) :
    w'.fs = w.fs ∧ entries.map (·.1) =
      (names.map toStringLossy).filter fun name =>
        decide (name ∉ seen) && !isTombstoned env w.fs (rel ++ [name]) := by
  induction names generalizing w entries with
  | nil =>
    cases h
    exact ⟨rfl, rfl⟩
  | cons n names ih =>
    obtain ⟨u, w₁, hNext, hRun⟩ := bind_ok h
    obtain ⟨-, rfl⟩ := query_ok hNext
    rw [map_cons, filter_cons]
    dsimp only at hRun
    split at hRun
    next hSeen =>
      rw [if_neg (by simp [hSeen])]
      obtain ⟨hFs, hNames⟩ := ih hRun
      exact ⟨hFs, hNames⟩
    next hNew =>
      rw [probe_bind_run] at hRun
      split at hRun
      next hHidden =>
        rw [if_neg (by simpa using fun _ => hHidden)]
        obtain ⟨hFs, hNames⟩ := ih hRun
        exact ⟨hFs, hNames⟩
      next hShown =>
        obtain ⟨info, w₂, hInfo, hRun₁⟩ := bind_ok hRun
        obtain ⟨-, rfl⟩ := query_ok hInfo
        obtain ⟨rest, w₃, hRest, hRun₂⟩ := bind_ok hRun₁
        cases hRun₂
        obtain ⟨hFs, hNames⟩ := ih hRest
        have hShown' : isTombstoned env w.fs (rel ++ [toStringLossy n]) = false := by
          simpa using hShown
        rw [if_pos (by simp [hNew, hShown'])]
        exact ⟨hFs, by rw [map_cons, hNames]⟩

theorem listSide_ok {rel : Path} {seen : List Name} {loc dir : Option Loc}
    {entries : List (Name × Meta)} {env : Env} {w w' : World}
    (hDir : dir = sideDir env w.fs loc)
    (h : listSide rel dir seen env w = (.ok entries, w')) :
    w'.fs = w.fs ∧
      entries.map (·.1) = (shownIn env w.fs rel dir).filter fun name => decide (name ∉ seen) := by
  cases dir with
  | none =>
    cases h
    exact ⟨rfl, rfl⟩
  | some dir =>
    obtain ⟨names, w₁, hRead, hRun⟩ := bind_ok h
    obtain ⟨hEntries, rfl⟩ := query_ok hRead
    have hFollow : follow env w.fs dir = .ok dir := by
      cases loc with
      | none => cases hDir
      | some loc =>
        have hBind := hDir.symm
        unfold sideDir at hBind
        obtain ⟨found, -, hFound⟩ := Option.bind_eq_some_iff.mp hBind
        cases hPath : follow env w.fs found with
        | error e => rw [hPath] at hFound; cases hFound
        | ok dest =>
          rw [hPath] at hFound
          cases hFound
          exact follow_idem hPath
    rw [hFollow] at hEntries
    have hNames : names = (w.fs.tree dir.root).childNames dir.path := by
      simp only [HostFs.entries] at hEntries
      split at hEntries
      · cases hEntries
      · split at hEntries
        · cases hEntries
          rfl
        · cases hEntries
    subst hNames
    obtain ⟨hFs, hList⟩ := listEntries_ok hRun
    refine ⟨hFs, ?_⟩
    rw [hList, shownIn, filter_filter]

/-- A listing has the names of the copy-on-write directory first. -/
theorem listDir_names {rel : Path} {entries : List (Name × Meta)} {env : Env} {w w' : World}
    (h : listDir rel env w = (.ok entries, w')) :
    w'.fs = w.fs ∧ entries.map (·.1) = listedNames env w.fs rel := by
  obtain ⟨view, w₁, hView, hRun⟩ := bind_ok h
  obtain ⟨hFs, hOverlay, hBacking⟩ := resolveDir_ok hView
  obtain ⟨upper, w₂, hUpper, hRun₁⟩ := bind_ok hRun
  obtain ⟨lower, w₃, hLower, hRun₂⟩ := bind_ok hRun₁
  cases hRun₂
  obtain ⟨hFs₁, hUpperNames⟩ := listSide_ok (hOverlay.trans (by rw [hFs])) hUpper
  have hUpperIs : upper.map (·.1) = upperNames env w.fs rel := by
    rw [hUpperNames, hFs, hOverlay, upperNames]
    simp
  have hSame : w₂.fs = w.fs := hFs₁.trans hFs
  have hLowerIs : w'.fs = w₂.fs ∧ lower.map (·.1) =
      (lowerNames env w.fs rel).filter fun name => decide (name ∉ upperNames env w.fs rel) := by
    by_cases hLink : sideIsLink w.fs (overlayPath env rel)
    · rw [if_pos hLink] at hBacking
      rw [hBacking] at hLower
      cases hLower
      simp [lowerNames, hLink]
    · rw [if_neg hLink] at hBacking
      obtain ⟨hFs₂, hLowerNames⟩ := listSide_ok (hBacking.trans (by rw [hSame])) hLower
      refine ⟨hFs₂, ?_⟩
      rw [hLowerNames, hUpperIs, hSame, hBacking, lowerNames, if_neg hLink]
  refine ⟨hLowerIs.1.trans hSame, ?_⟩
  rw [map_append, hUpperIs, hLowerIs.2, listedNames]
  simp

end FabricFs.Overlay

namespace FabricFs.Service

open Lib Lib.Prog Overlay

/-! ## Replies -/

/-- `READDIR_MAX_ENTRIES`. -/
def readdirMaxEntries : Nat := 1024

def i64Max : Nat := 2 ^ 63 - 1

/-- `readdir` of the service: a page of the listing, and whether it is the last one. The
inode numbers of the entries are left out. -/
def readdir (rel : Path) (offset maxEntries : Nat) : Op (List (Name × Kind) × Bool) := do
  let entries ← listDir rel
  let page := ((entries.drop offset).take maxEntries).map fun entry => (entry.1, entry.2.kind)
  pure (page, decide (entries.length ≤ offset + page.length))

structure ReplyEntry where
  offset : Nat
  kind : Kind
  name : Name
  deriving DecidableEq

/-- `directory_entries` of the presenter. -/
def directoryEntries (kernelOffset : Nat) (entries : List (Name × Kind)) : List ReplyEntry :=
  (if kernelOffset = 0 then [⟨1, .dir, dotName⟩] else []) ++
    (if kernelOffset ≤ 1 then [⟨2, .dir, dotDotName⟩] else []) ++
    entries.zipIdx.map fun entry =>
      ⟨min (kernelOffset - 2 + entry.2 + 3) i64Max, entry.1.2, entry.1.1⟩

/-- `readdir` of the mounted file system, with `readdir_request`. -/
def fuseReaddir (rel : Path) (offset : Int) : Op (List ReplyEntry) := do
  ensure (decide (0 ≤ offset)) .einval
  let page ← readdir rel (offset.toNat - 2) readdirMaxEntries
  pure (directoryEntries offset.toNat page.1)

/-! ## Streams -/

/-- What the kernel and the host hold while a directory is read. -/
structure Stream where
  world : World
  /-- The offset of the last entry that was accepted. -/
  position : Nat
  accepted : List Name
  finished : Bool

def openStream (w : World) : Stream := ⟨w, 0, [], false⟩

/-- Either the next call of the kernel, which accepts that many entries of the reply, or an
operation on the overlay. -/
inductive Event where
  | readdir (accept : Nat)
  | other (request : Request)

/-- A failing call leaves the stream where it is; an empty reply ends it. -/
def step (env : Env) (rel : Path) : Event → Stream → Stream
  | .other request, s => { s with world := Overlay.step env request s.world }
  | .readdir accept, s =>
    match fuseReaddir rel s.position env s.world with
    | (.error _, w) => { s with world := w }
    | (.ok reply, w) =>
      if s.finished then { s with world := w }
      else
        let taken := reply.take accept
        { world := w
          position := (taken.getLast?.map (·.offset)).getD s.position
          accepted := s.accepted ++ taken.map (·.name)
          finished := decide (reply = []) }

/-! ## One reply -/

/-- What the kernel is to see: the two names of every directory and the listing. -/
def fullListing (env : Env) (fs : HostFs) (rel : Path) : List Name :=
  dotName :: dotDotName :: listedNames env fs rel

theorem map_name_directoryEntries (kernelOffset : Nat) (entries : List (Name × Kind)) :
    (directoryEntries kernelOffset entries).map (·.name) =
      ([dotName, dotDotName].drop kernelOffset) ++ entries.map (·.1) := by
  have hEntries : (entries.zipIdx.map fun entry : (Name × Kind) × Nat => entry.1.1) =
      entries.map (·.1) := by
    have hBoth : (fun entry : (Name × Kind) × Nat => entry.1.1) = Prod.fst ∘ Prod.fst := rfl
    rw [hBoth, ← List.map_map, List.zipIdx_map_fst]
  match kernelOffset with
  | 0 => simp [directoryEntries, Function.comp_def, hEntries]
  | 1 => simp [directoryEntries, Function.comp_def, hEntries]
  | n + 2 => simp [directoryEntries, Function.comp_def, hEntries]

theorem offset_directoryEntries {kernelOffset i : Nat} {entries : List (Name × Kind)}
    {entry : ReplyEntry} (h : (directoryEntries kernelOffset entries)[i]? = some entry) :
    entry.offset = min (kernelOffset + i + 1) i64Max := by
  have hListed : ∀ offset j : Nat, (entries.zipIdx.map fun found : (Name × Kind) × Nat =>
      (⟨min (offset + found.2 + 3) i64Max, found.1.2, found.1.1⟩ : ReplyEntry))[j]? = some entry →
      entry.offset = min (offset + j + 3) i64Max := by
    intro offset j hEntry
    rw [List.getElem?_map, List.getElem?_zipIdx] at hEntry
    cases hFound : entries[j]? with
    | none => simp [hFound] at hEntry
    | some found =>
      simp only [hFound, Option.map_some, Option.some.injEq] at hEntry
      rw [← hEntry, Nat.zero_add]
  match kernelOffset, i with
  | 0, 0 =>
    cases h
    rfl
  | 0, 1 =>
    cases h
    rfl
  | 0, i + 2 =>
    rw [hListed 0 i (by simpa [directoryEntries] using h)]
    omega
  | 1, 0 =>
    cases h
    rfl
  | 1, i + 1 =>
    rw [hListed 0 i (by simpa [directoryEntries] using h)]
    omega
  | n + 2, i =>
    rw [hListed n i (by simpa [directoryEntries] using h)]
    omega

/-- A reply is a segment of the full listing, and empty only at its end. -/
theorem fuseReaddir_spec {rel : Path} {position : Nat} {reply : List ReplyEntry} {env : Env}
    {w w' : World} (h : fuseReaddir rel position env w = (.ok reply, w')) :
    w'.fs = w.fs ∧
      reply.map (·.name) = ((fullListing env w.fs rel).drop position).take
        (readdirMaxEntries + (2 - position)) ∧
      ∀ i entry, reply[i]? = some entry → entry.offset = min (position + i + 1) i64Max := by
  obtain ⟨u, w₁, hEnsure, hRun⟩ := bind_ok h
  obtain ⟨-, hSame⟩ := ensure_ok hEnsure
  subst w₁
  obtain ⟨page, w₂, hPage, hRun₁⟩ := bind_ok hRun
  cases hRun₁
  obtain ⟨entries, w₃, hList, hRun₂⟩ := bind_ok hPage
  cases hRun₂
  obtain ⟨hFs, hNames⟩ := listDir_names hList
  rw [Int.toNat_natCast]
  refine ⟨hFs, ?_, fun i entry hEntry => offset_directoryEntries hEntry⟩
  rw [map_name_directoryEntries, List.map_map]
  have hPageNames : (((entries.drop (position - 2)).take readdirMaxEntries).map
      ((fun entry => entry.1) ∘ fun entry => (entry.1, entry.2.kind))) =
      ((listedNames env w.fs rel).drop (position - 2)).take readdirMaxEntries := by
    rw [← hNames, ← List.map_drop, ← List.map_take]
    rfl
  rw [hPageNames, fullListing]
  match position with
  | 0 => simp [readdirMaxEntries]
  | 1 => simp [readdirMaxEntries]
  | n + 2 => simp

/-! ## Streams that list every name once -/

/-- No two shown entries of a host directory have the same decoded name, the host does not
report `.` and `..` itself, and the entries can be counted in 63 bits. -/
structure Distinct (env : Env) (fs : HostFs) (rel : Path) : Prop where
  upper : (upperNames env fs rel).Nodup
  lower : (lowerNames env fs rel).Nodup
  dots : ¬ VisibleIn env fs rel dotName ∧ ¬ VisibleIn env fs rel dotDotName
  size : (fullListing env fs rel).length ≤ i64Max

theorem Distinct.nodup {env : Env} {fs : HostFs} {rel : Path} (h : Distinct env fs rel) :
    (fullListing env fs rel).Nodup := by
  have hListed : (listedNames env fs rel).Nodup := by
    refine List.nodup_append.mpr ⟨h.upper, h.lower.filter _, ?_⟩
    intro a ha b hb hSame
    have hNot : b ∉ upperNames env fs rel := by simpa using (List.mem_filter.mp hb).2
    exact hNot (hSame ▸ ha)
  have hDots : dotName ≠ dotDotName := by decide
  simp only [fullListing, List.nodup_cons, List.mem_cons, mem_listedNames, not_or]
  exact ⟨⟨hDots, h.dots.1⟩, h.dots.2, hListed⟩

/-- The operations between the calls neither add nor remove a visible name. -/
def SameNames (env : Env) (rel : Path) : Event → Stream → Prop
  | .readdir _, _ => True
  | .other request, s => ∀ name,
      VisibleIn env (Overlay.step env request s.world).fs rel name ↔
        VisibleIn env s.world.fs rel name

/-- Once an entry of the listing was accepted, the operations up to the end of the stream
leave the shown entries of both host directories as they are, and the names are distinct. -/
def Steady (env : Env) (rel : Path) : Event → Stream → Prop
  | .readdir _, s => Distinct env s.world.fs rel
  | .other request, s => s.finished = false → 2 < s.position →
      upperNames env (Overlay.step env request s.world).fs rel = upperNames env s.world.fs rel ∧
        lowerNames env (Overlay.step env request s.world).fs rel = lowerNames env s.world.fs rel

/-- All of `.`, `..` and the visible names, once each. -/
def ListedOnce (env : Env) (fs : HostFs) (rel : Path) (names : List Name) : Prop :=
  names.Nodup ∧
    ∀ name, name ∈ names ↔ name = dotName ∨ name = dotDotName ∨ VisibleIn env fs rel name

/-- An open stream has accepted an initial segment of the listing, a finished one all of
it. -/
def Orderly (env : Env) (rel : Path) (s : Stream) : Prop :=
  if s.finished then ListedOnce env s.world.fs rel s.accepted
  else s.accepted = (fullListing env s.world.fs rel).take s.position ∧
    s.position ≤ (fullListing env s.world.fs rel).length

theorem Orderly.of_fs {env : Env} {rel : Path} {s : Stream} {w : World} (h : Orderly env rel s)
    (hFs : w.fs = s.world.fs) : Orderly env rel { s with world := w } := by
  unfold Orderly at h ⊢
  rw [hFs]
  exact h

/-- The entries before the listing itself do not depend on it. -/
theorem take_fullListing {env : Env} {fs fs' : HostFs} {rel : Path} {n : Nat} (hn : n ≤ 2) :
    (fullListing env fs rel).take n = (fullListing env fs' rel).take n := by
  have hCases : n = 0 ∨ n = 1 ∨ n = 2 := by omega
  rcases hCases with rfl | rfl | rfl <;>
    simp only [fullListing, List.take_zero, List.take_succ_cons]

theorem Orderly.other {env : Env} {rel : Path} {s : Stream} {w : World} (h : Orderly env rel s)
    (hNames : ∀ name, VisibleIn env w.fs rel name ↔ VisibleIn env s.world.fs rel name)
    (hSteady : s.finished = false → 2 < s.position →
      upperNames env w.fs rel = upperNames env s.world.fs rel ∧
        lowerNames env w.fs rel = lowerNames env s.world.fs rel) :
    Orderly env rel { s with world := w } := by
  unfold Orderly at h ⊢
  cases hFinished : s.finished with
  | true =>
    rw [hFinished, if_pos rfl] at h
    rw [if_pos rfl]
    exact ⟨h.1, fun name => (h.2 name).trans (by rw [← hNames name])⟩
  | false =>
    rw [hFinished, if_neg (by decide)] at h
    rw [if_neg (by decide)]
    by_cases hPosition : 2 < s.position
    · obtain ⟨hUpper, hLower⟩ := hSteady hFinished hPosition
      have hSame : fullListing env w.fs rel = fullListing env s.world.fs rel := by
        rw [fullListing, fullListing, listedNames, listedNames, hUpper, hLower]
      dsimp only
      rw [hSame]
      exact h
    · refine ⟨h.1.trans (take_fullListing (by omega)), ?_⟩
      simp only [fullListing, List.length_cons]
      omega

theorem fuseReaddir_fs (rel : Path) (offset : Int) (env : Env) (w : World) :
    (fuseReaddir rel offset env w).2.fs = w.fs := by
  have hUntimed : Untimed (fun v => v.fs = w.fs) := fun _ _ hv => hv
  have hKeeps : Keeps env (fun v => v.fs = w.fs) (fuseReaddir rel offset) :=
    keeps_ensured <|
    keeps_map (keeps_map (keeps_listDir hUntimed rel))
  exact hKeeps.after rfl

theorem Orderly.readdir {env : Env} {rel : Path} {s : Stream} {accept : Nat}
    (h : Orderly env rel s) (hDistinct : Distinct env s.world.fs rel) :
    Orderly env rel (step env rel (.readdir accept) s) := by
  rw [step]
  split
  next e w hError =>
    have hFs := fuseReaddir_fs rel s.position env s.world
    rw [hError] at hFs
    exact h.of_fs hFs
  next reply w hReply =>
    obtain ⟨hFs, hNames, hOffsets⟩ := fuseReaddir_spec hReply
    split
    next hFinished => exact h.of_fs hFs
    next hFinished =>
      unfold Orderly at h ⊢
      rw [if_neg hFinished] at h
      dsimp only
      rw [hFs]
      set full := fullListing env s.world.fs rel with hFull
      set room := readdirMaxEntries + (2 - s.position) with hRoom
      have hLength : reply.length = min room (full.length - s.position) := by
        have hLengths := congrArg List.length hNames
        simpa using hLengths
      by_cases hEmpty : reply = []
      · -- the listing ends here
        have hEnd : full.length ≤ s.position := by
          rw [hEmpty, List.length_nil] at hLength
          have hPos : 0 < room := by
            rw [hRoom, readdirMaxEntries]
            omega
          omega
        rw [if_pos (by simpa using hEmpty), hEmpty, List.take_nil, List.map_nil, List.append_nil,
          h.1, List.take_of_length_le hEnd]
        refine ⟨hDistinct.nodup, fun name => ?_⟩
        simp only [hFull, fullListing, List.mem_cons, mem_listedNames]
      · rw [if_neg (by simpa using hEmpty)]
        have hTaken : (reply.take accept).map (·.name) =
            (full.drop s.position).take (reply.take accept).length := by
          rw [List.map_take, hNames, List.take_take, List.length_take, hLength]
          refine List.take_eq_take_iff.mpr ?_
          rw [List.length_drop]
          omega
        have hPosition : ((reply.take accept).getLast?.map (·.offset)).getD s.position =
            s.position + (reply.take accept).length := by
          cases hLast : (reply.take accept).getLast? with
          | none =>
            rw [List.getLast?_eq_none_iff.mp hLast]
            rfl
          | some entry =>
            have hSome : reply.take accept ≠ [] := by
              intro hNone
              rw [hNone] at hLast
              cases hLast
            have hPos := List.length_pos_iff.mpr hSome
            rw [List.getLast?_eq_getElem?] at hLast
            have hEntry : reply[(reply.take accept).length - 1]? = some entry := by
              rw [List.getElem?_take] at hLast
              split at hLast
              · exact hLast
              · cases hLast
            have hOffset := hOffsets _ _ hEntry
            have hSize := hDistinct.size
            rw [← hFull] at hSize
            have hLe : (reply.take accept).length ≤ reply.length := List.length_take_le' _ _
            simp only [Option.map_some, Option.getD_some]
            omega
        rw [hPosition, h.1, hTaken, ← List.take_add]
        refine ⟨rfl, ?_⟩
        have hLe : (reply.take accept).length ≤ reply.length := List.length_take_le' _ _
        omega

/-- A stream lists `.`, `..` and every visible name once if, after the first entry of the
listing was accepted, the operations between the calls leave the shown entries of both host
directories as they are. -/
theorem readdir_lists_once (env : Env) (rel : Path) (w : World) (events : List Event)
    (hNames : Runs.Along (step env rel) (SameNames env rel) events (openStream w))
    (hSteady : Runs.Along (step env rel) (Steady env rel) events (openStream w)) :
    let s := Runs.run (step env rel) events (openStream w)
    s.finished = true → ListedOnce env s.world.fs rel s.accepted := by
  intro s hFinished
  have hBoth : Runs.Along (step env rel) (fun event t => SameNames env rel event t ∧
      Steady env rel event t) events (openStream w) := Runs.along_and hNames hSteady
  have hOrderly : Orderly env rel s := by
    refine Runs.run_invariant ?_ (by simp [Orderly, openStream]) hBoth
    intro event t hOrderly hC
    cases event with
    | readdir accept => exact hOrderly.readdir hC.2
    | other request => exact hOrderly.other hC.1 hC.2
  unfold Orderly at hOrderly
  rwa [if_pos hFinished] at hOrderly

/-! ## A copy-up between two calls -/

/-- A backing directory with two files, which the host lists as `b`, `a`. -/
def twoFiles : World :=
  started (fsOf [⟨.backing, [nameOf "a"], .file, 0o644, [1]⟩,
    ⟨.backing, [nameOf "b"], .file, 0o644, [2]⟩])

/-- Open the file that is listed last for writing, which copies it up. -/
def openForWriting : Event := .other (.openAt [nameOf "a"] .file 2 superuser)

/-- The file is copied up before the first call and written to between the calls. -/
def copiedBefore : List Event :=
  [openForWriting, .readdir 3, .other (.write [nameOf "a"] 0 [3] superuser), .readdir 10,
    .readdir 10]

instance (env : Env) (fs : HostFs) (rel : Path) (name : Name) :
    Decidable (VisibleIn env fs rel name) := inferInstanceAs (Decidable (_ ∨ _))

theorem visibleIn_congr {env : Env} {fs fs' : HostFs} {rel : Path}
    (h : ∀ name ∈ upperNames env fs rel ++ lowerNames env fs rel, VisibleIn env fs' rel name)
    (h' : ∀ name ∈ upperNames env fs' rel ++ lowerNames env fs' rel, VisibleIn env fs rel name)
    (name : Name) : VisibleIn env fs rel name ↔ VisibleIn env fs' rel name :=
  ⟨fun hName => h name (List.mem_append.mpr hName),
    fun hName => h' name (List.mem_append.mpr hName)⟩

theorem readdir_lists_once_copied_before :
    let s := Runs.run (step sampleEnv []) copiedBefore (openStream twoFiles)
    s.finished = true ∧ ListedOnce sampleEnv s.world.fs [] s.accepted := by
  intro s
  have hFinished : s.finished = true := by decide +kernel
  refine ⟨hFinished, readdir_lists_once sampleEnv [] twoFiles copiedBefore ?_ ?_ hFinished⟩
  · refine ⟨?_, trivial, ?_, trivial, trivial, trivial⟩
    · exact visibleIn_congr (by decide +kernel) (by decide +kernel)
    · exact visibleIn_congr (by decide +kernel) (by decide +kernel)
  · have hDistinct : ∀ n ≤ 3, Distinct sampleEnv
        (Runs.run (step sampleEnv []) (copiedBefore.take (n + 1)) (openStream twoFiles)).world.fs
        [] := by
      intro n hn
      have hCases : n = 0 ∨ n = 1 ∨ n = 2 ∨ n = 3 := by omega
      rcases hCases with rfl | rfl | rfl | rfl
      all_goals exact ⟨by decide +kernel, by decide +kernel, by decide +kernel, by decide +kernel⟩
    refine ⟨?_, hDistinct 0 (by omega), ?_, hDistinct 2 (by omega), hDistinct 3 (by omega),
      trivial⟩
    · intro _ hPosition
      cases hPosition
    · intro _ _
      decide +kernel

/-- After the first name was accepted, the other file is copied up and moves to the front of
the listing: the first name is listed again and the other never. -/
theorem readdir_repeats_and_skips :
    let events := [.readdir 3, openForWriting, .readdir 10, .readdir 10]
    let s := Runs.run (step sampleEnv []) events (openStream twoFiles)
    Runs.Along (step sampleEnv []) (SameNames sampleEnv []) events (openStream twoFiles) ∧
      s.finished = true ∧ s.accepted = [dotName, dotDotName, nameOf "b", nameOf "b"] ∧
      VisibleIn sampleEnv s.world.fs [] (nameOf "a") := by
  intro events s
  refine ⟨⟨trivial, ?_, trivial, trivial, trivial⟩, ?_⟩
  · exact visibleIn_congr (by decide +kernel) (by decide +kernel)
  · decide +kernel

end FabricFs.Service
