import FabricFs.Overlay.Rules
import FabricFs.Overlay.Samples

/-!
# Who may change what

The rules by which a change is permitted to a caller, in terms of what the mount shows
before the request: search permission on the directories above a path, write permission on
the object or on the directory of the entry, the sticky rule, ownership. The requests check
part of this themselves.

* `enforced_unlink`, `enforced_rename` and so on: what a request has
  checked once it has succeeded.
* `permitted_iff`: a request that has succeeded was permitted exactly if the caller had the
  permissions that the request leaves unchecked. These are the search permissions on the
  directories above the one that is written, or above an object; for `setxattr` and
  `removexattr` all permissions; for a change of length through a handle the write
  permission; and the sticky rule on the target of a rename, if the host reports errors.
-/

namespace FabricFs.Overlay

open Lib Lib.Prog Server List

/-! ## What is visible -/

/-- The metadata of the object that a path shows. -/
def visibleMeta (env : Env) (fs : HostFs) (rel : Path) : Option Meta :=
  (resolve env fs rel).bind fun loc => (fs.get loc).map fs.metaOf

/-- The metadata of the directory that a path shows, through a link at its end. -/
def directoryMeta (env : Env) (fs : HostFs) (rel : Path) : Option Meta :=
  (resolve env fs rel).bind fun loc => (followNode env fs loc).toOption.map fs.metaOf

/-! ## Permissions -/

section Permissions

variable (env : Env) (w : World) (c : FuseContext)

/-- The caller may search the directories above the path. -/
def MaySearch (rel : Path) : Prop :=
  ∀ dir, dir <+: rel → dir ≠ rel → ∀ info, directoryMeta env w.fs dir = some info →
    accessAllowed info c.uid c.gid 0o1 = true

/-- The caller may write and search the directory of the entry. -/
def MayEnter (rel : Path) : Prop :=
  ∃ info, directoryMeta env w.fs rel.dropLast = some info ∧
    accessAllowed info c.uid c.gid 0o3 = true

/-- The sticky rule for the object at the path. -/
def MayReplace (rel : Path) : Prop :=
  ∀ parent target, directoryMeta env w.fs rel.dropLast = some parent →
    visibleMeta env w.fs rel = some target → stickyAllowed parent target c.uid = true

def MayWrite (rel : Path) : Prop :=
  ∃ info, visibleMeta env w.fs rel = some info ∧ accessAllowed info c.uid c.gid 0o2 = true

/-- The mode and the owners are for the owner to change, the length for who may write. -/
def MayChange (info : Meta) (change : Setattr) : Prop :=
  (change.permissions = true → info.uid = c.uid) ∧
    (change.size.isSome = true → accessAllowed info c.uid c.gid 0o2 = true)

/-- The flags ask for writing or truncation. -/
def Writes (flags : Nat) : Prop :=
  ∃ bits, openAccessBits flags = .ok bits ∧ hasBit bits 0o2 = true

inductive Mutation where
  | create (path : Path) (mode flags : Nat)
  | mkdir (path : Path) (mode : Nat)
  | symlink (path : Path) (target : Bytes)
  | link (source target : Path)
  | unlink (path : Path)
  | rmdir (path : Path)
  | rename (source target : Path)
  | openFile (path : Path) (flags : Nat)
  | setattr (path : Path) (change : Setattr)
  | setattrFh (path : Path) (handle : Nat) (change : Setattr)
  | setxattr (path : Path) (name value : Bytes) (flags : Nat)
  | removexattr (path : Path) (name : Bytes)

namespace Mutation

/-- The request that a caller makes; extended attributes are changed without naming one. -/
def request : Mutation → Request
  | create path mode flags => .create path mode flags (some c)
  | mkdir path mode => .mkdir path mode (some c)
  | symlink path target => .symlink path target (some c)
  | link source target => .link source target (some c)
  | unlink path => .unlink path (some c)
  | rmdir path => .rmdir path (some c)
  | rename source target => .rename source target (some c)
  | openFile path flags => .openAt path .file flags (some c)
  | setattr path change => .setattr path change (some c)
  | setattrFh path handle change => .setattrFh path handle change (some c)
  | setxattr path name value flags => .setxattr path name value flags
  | removexattr path name => .removexattr path name

/-- The rules, before the request. An open that neither writes nor truncates is no change. -/
def Permitted : Mutation → Prop
  | create path _ flags => MaySearch env w c path ∧
      (∀ info, visibleMeta env w.fs path = some info → Writes flags →
        accessAllowed info c.uid c.gid 0o2 = true) ∧
      (visibleMeta env w.fs path = none → MayEnter env w c path)
  | mkdir path _ | symlink path _ => MaySearch env w c path ∧ MayEnter env w c path
  | link source target =>
    MaySearch env w c source ∧ MaySearch env w c target ∧ MayEnter env w c target
  | unlink path | rmdir path =>
    MaySearch env w c path ∧ MayEnter env w c path ∧ MayReplace env w c path
  | rename source target =>
    (MaySearch env w c source ∧ MayEnter env w c source ∧ MayReplace env w c source) ∧
      MaySearch env w c target ∧ MayEnter env w c target ∧ MayReplace env w c target
  | openFile path flags => Writes flags → MaySearch env w c path ∧ MayWrite env w c path
  | setattr path change => MaySearch env w c path ∧
      ∃ info, visibleMeta env w.fs path = some info ∧ MayChange c info change
  | setattrFh path handle change => MaySearch env w c path ∧
      ∃ entry file, w.handles.lookup handle = some entry ∧ entry.file = some file ∧
        MayChange c (w.fs.metaOf file) change
  | setxattr path _ _ _ | removexattr path _ => MaySearch env w c path ∧ MayWrite env w c path

/-- What a request takes for granted. -/
def Unchecked : Mutation → Prop
  | create path _ _ =>
    MaySearch env w c (if (visibleMeta env w.fs path).isSome then path else path.dropLast)
  | mkdir path _ | symlink path _ | unlink path | rmdir path => MaySearch env w c path.dropLast
  | link _ target => MaySearch env w c target.dropLast
  | rename source target => MaySearch env w c source.dropLast ∧ MaySearch env w c target.dropLast ∧
      ((∃ k, (env.fault k).isSome = true) → MayReplace env w c target)
  | openFile path flags => Writes flags → MaySearch env w c path
  | setattr path _ => MaySearch env w c path
  | setattrFh path handle change => MaySearch env w c path ∧
      (change.size.isSome = true → ∀ entry file, w.handles.lookup handle = some entry →
        entry.file = some file → accessAllowed (w.fs.metaOf file) c.uid c.gid 0o2 = true)
  | setxattr path _ _ _ | removexattr path _ => MaySearch env w c path ∧ MayWrite env w c path

end Mutation

end Permissions

/-! ## Bits -/

theorem accessAllowed_of_subset {info : Meta} {uid gid wanted part : Nat} (hUser : uid ≠ 0)
    (hPart : wanted &&& part = part) (h : accessAllowed info uid gid wanted = true) :
    accessAllowed info uid gid part = true := by
  simp only [accessAllowed, if_neg hUser, beq_iff_eq] at h ⊢
  calc classBits info uid gid &&& part
      = classBits info uid gid &&& (wanted &&& part) := by rw [hPart]
    _ = (classBits info uid gid &&& wanted) &&& part := by rw [Nat.and_assoc]
    _ = part := by rw [h, hPart]

theorem openAccessBits_cases {flags bits : Nat} (h : openAccessBits flags = .ok bits) :
    bits = 0o2 ∨ bits = 0o4 ∨ bits = 0o6 := by
  have hOr : ∀ b, b = 0o4 ∨ b = 0o2 ∨ b = 0o6 →
      let bits := b ||| if hasBit flags oTrunc then 0o2 else 0
      bits = 0o2 ∨ bits = 0o4 ∨ bits = 0o6 := by
    rintro b (rfl | rfl | rfl) <;> cases hasBit flags oTrunc <;> decide
  unfold openAccessBits at h
  simp only at h
  split at h
  · cases h
    exact hOr 0o4 (by decide)
  · split at h
    · cases h
      exact hOr 0o2 (by decide)
    · split at h
      · cases h
        exact hOr 0o6 (by decide)
      · cases h

theorem accessAllowed_write {info : Meta} {uid gid bits flags : Nat} (hUser : uid ≠ 0)
    (hBits : openAccessBits flags = .ok bits) (hWrites : Writes flags)
    (h : accessAllowed info uid gid bits = true) : accessAllowed info uid gid 0o2 = true := by
  obtain ⟨bits', hBits', hBit⟩ := hWrites
  rw [hBits] at hBits'
  cases hBits'
  refine accessAllowed_of_subset hUser ?_ h
  rcases openAccessBits_cases hBits with rfl | rfl | rfl
  · rfl
  · cases hBit
  · rfl

/-! ## Directories above a path -/

section Search

variable {env : Env} {w : World} {c : FuseContext}

variable {rel : Path}

theorem above_iff {dir : Path} (hRel : rel ≠ []) :
    dir <+: rel ∧ dir ≠ rel ↔ dir <+: rel.dropLast := by
  obtain ⟨front, last, rfl⟩ : ∃ front last, rel = front ++ [last] :=
    ⟨_, _, (dropLast_append_getLast hRel).symm⟩
  rw [dropLast_concat, prefix_concat_iff]
  constructor
  · rintro ⟨rfl | h, hNe⟩
    · exact absurd rfl hNe
    · exact h
  · intro h
    refine ⟨.inr h, ?_⟩
    rintro rfl
    have hLength := h.length_le
    simp only [length_append, length_singleton] at hLength
    omega

/-- The directories above a path are its parent and those above the parent. -/
theorem maySearch_iff (hRel : rel ≠ []) :
    MaySearch env w c rel ↔ MaySearch env w c rel.dropLast ∧
      ∀ info, directoryMeta env w.fs rel.dropLast = some info →
        accessAllowed info c.uid c.gid 0o1 = true := by
  have hProper : ∀ dir, dir <+: rel ∧ dir ≠ rel ↔ dir <+: rel.dropLast :=
    fun dir => above_iff hRel
  constructor
  · intro h
    refine ⟨fun dir hDir _ => ?_, ?_⟩
    · exact h dir ((hProper dir).2 hDir).1 ((hProper dir).2 hDir).2
    · exact h _ ((hProper _).2 (prefix_refl _)).1 ((hProper _).2 (prefix_refl _)).2
  · rintro ⟨hAbove, hParent⟩ dir hDir hNe
    by_cases hEq : dir = rel.dropLast
    · rw [hEq]
      exact hParent
    · exact hAbove dir ((hProper dir).1 ⟨hDir, hNe⟩) hEq

/-- Who may write the directory of an entry lacks at most the search above it. -/
theorem maySearch_iff_of_mayEnter (hUser : c.uid ≠ 0) (h : MayEnter env w c rel) :
    MaySearch env w c rel ↔ MaySearch env w c rel.dropLast := by
  by_cases hRel : rel = []
  · rw [hRel, dropLast_nil]
  · obtain ⟨info, hInfo, hAllowed⟩ := h
    rw [maySearch_iff hRel, and_iff_left]
    intro info' hInfo'
    rw [hInfo] at hInfo'
    cases hInfo'
    exact accessAllowed_of_subset hUser rfl hAllowed

end Search

/-! ## What the lookups of a request find -/

/-- The file system and the handles are those from before the request. -/
def At (w₀ w : World) : Prop := w.fs = w₀.fs ∧ w.handles = w₀.handles

theorem untimed_at (w₀ : World) : Untimed (At w₀) := fun _ _ h => h

section Looking

variable {env : Env} {w₀ : World} {α : Type}

variable {φ : Prop} {fs : HostFs} {rel : Path} {loc : Loc} {node : Node}

/-- What has been established holds whatever follows. -/
theorem triple_settled {P : World → Prop} {x : Op α} (h : φ) :
    Triple env P x (fun _ _ => φ) (fun _ => True) := by
  intro w _
  rcases x env w with ⟨e | a, w'⟩
  · trivial
  · exact h

theorem triple_check {β : Type} {x : Op β} {f : β → Op α}
    (h : Triple env (At w₀) x (fun _ w => At w₀ w ∧ φ) (fun _ => True)) :
    Triple env (At w₀) (x >>= f) (fun _ _ => φ) (fun _ => True) :=
  triple_seq h <| triple_fact triple_settled

theorem triple_established {β : Type} {P : World → Prop} {x : Op β} {f : β → Op α}
    (h : Triple env P x (fun _ _ => φ) (fun _ => True)) :
    Triple env P (x >>= f) (fun _ _ => φ) (fun _ => True) :=
  triple_bind h fun _ w hφ => triple_settled (P := fun _ => φ) hφ w hφ

theorem visibleMeta_of_resolve (hLoc : resolve env fs rel = some loc)
    (hNode : fs.get loc = some node) :
    visibleMeta env fs rel = some (fs.metaOf node) := by
  simp [visibleMeta, hLoc, hNode]

theorem get_of_resolve (hLoc : resolve env fs rel = some loc) : ∃ node, fs.get loc = some node := by
  refine Option.isSome_iff_exists.mp ?_
  rcases (resolve_eq_some.mp hLoc).2 with ⟨-, rfl, hGet⟩ | ⟨-, rfl, hGet, -⟩
  · exact hGet
  · exact hGet

theorem visibleMeta_of_hidden (h : resolve env fs rel = none) : visibleMeta env fs rel = none := by
  simp [visibleMeta, h]

/-- What is found out about the file system is about the one from before the request. -/
theorem triple_at {x : Op α} {Q : α → HostFs → Prop}
    (h : Triple env (At w₀) x (fun a w => At w₀ w ∧ Q a w.fs) (At w₀)) :
    Triple env (At w₀) x (fun a w => At w₀ w ∧ Q a w₀.fs) (fun _ => True) := by
  refine triple_imp h ?_ (fun _ _ => trivial)
  rintro a w ⟨hw, hQ⟩
  rw [hw.1] at hQ
  exact ⟨hw, hQ⟩

theorem triple_infoAt (loc : Loc) :
    Triple env (At w₀) (symlinkMetadata loc) (fun info w => At w₀ w ∧
      ∃ node, w₀.fs.get loc = some node ∧ info = w₀.fs.metaOf node) (fun _ => True) :=
  triple_at (Q := fun info fs => ∃ node, fs.get loc = some node ∧ info = fs.metaOf node)
    (triple_symlinkMetadata (untimed_at w₀) loc)

theorem triple_visibleInfo (hLoc : resolve env w₀.fs rel = some loc) :
    Triple env (At w₀) (symlinkMetadata loc)
      (fun info w => At w₀ w ∧ visibleMeta env w₀.fs rel = some info) (fun _ => True) := by
  refine (triple_infoAt loc).post ?_
  rintro info w ⟨hw, node, hNode, rfl⟩
  exact ⟨hw, visibleMeta_of_resolve hLoc hNode⟩

theorem triple_look (f : Env → HostFs → α) :
    Triple env (At w₀) (probe fun env w => f env w.fs)
      (fun a w => At w₀ w ∧ a = f env w₀.fs) (fun _ => True) := by
  rintro w hw
  exact ⟨hw, congrArg (f env) hw.1⟩

theorem triple_found (rel : Path) :
    Triple env (At w₀) (resolveExisting rel)
      (fun loc w => At w₀ w ∧ resolve env w₀.fs rel = some loc) (fun _ => True) :=
  triple_at (Q := fun loc fs => resolve env fs rel = some loc) (triple_resolveExisting rel)

theorem triple_dirViewPath (loc : Loc) :
    Triple env (At w₀) (dirViewPath loc)
      (fun view w => At w₀ w ∧ follow env w₀.fs loc = .ok view.1) (fun _ => True) := by
  refine triple_bind (triple_infoAt loc) fun linkMeta => triple_fact ?_
  rintro ⟨node, hNode, rfl⟩
  refine triple_ite (fun _ => ?_) (fun hKind => ?_)
  · refine triple_bind ((keeps_metadata (untimed_at w₀) loc).any) fun _ => ?_
    refine triple_bind ((keeps_ensure _ _).any) fun _ => ?_
    refine triple_bind ((triple_query (untimed_at w₀) _).any) fun dest => ?_
    rintro w' ⟨hw', n, hDest⟩
    rw [← hw'.1]
    exact ⟨hw', hDest⟩
  · refine triple_seq ((keeps_ensure _ _).any) <| triple_pure ?_
    intro w' hw'
    exact ⟨hw', follow_of_not_symlink hNode hKind⟩

/-- A side of a directory is the object at the path, through its links. -/
theorem triple_dirSide (loc : Option Loc) :
    Triple env (At w₀) (dirSide loc) (fun view w => At w₀ w ∧
      (view = none → ∀ l, loc = some l → w₀.fs.get l = none) ∧
      ∀ v, view = some v → ∃ l, loc = some l ∧ (w₀.fs.get l).isSome = true ∧
        follow env w₀.fs l = .ok v.1) (fun _ => True) := by
  unfold dirSide
  cases loc with
  | none => exact triple_pure fun w hw => ⟨hw, by simp, by simp⟩
  | some loc =>
    refine triple_nodeExists ?_ ?_
    · intro w hw
      have hSome : (w₀.fs.get loc).isSome = true := by
        rw [← hw.1.1]
        exact hw.2
      refine triple_learn (triple_dirViewPath loc) (fun view hFollow => ?_) w hw.1
      exact triple_pure fun w' hw' => ⟨hw', by simp, by simp [hSome, hFollow]⟩
    · refine triple_pure fun w hw => ⟨hw.1, ?_, by simp⟩
      rintro - l ⟨⟩
      rw [← hw.1.1]
      exact hw.2

/-- The first of the two directories is the visible one. -/
theorem triple_resolveDir (rel : Path) :
    Triple env (At w₀) (resolveDir rel) (fun view w => At w₀ w ∧
      ∃ dest loc, view.overlay.or view.backing = some dest ∧
        resolve env w₀.fs rel = some loc ∧ follow env w₀.fs loc = .ok dest)
      (fun _ => True) := by
  refine triple_ask (triple_learn (triple_look fun env fs => isTombstoned env fs rel)
    fun hidden hHidden => ?_)
  refine triple_learn (triple_ensure fun _ _ => trivial) fun _ hShown => ?_
  have hClear : isTombstoned env w₀.fs rel = false := by simpa [hHidden] using hShown
  refine triple_learn (triple_dirSide _) fun overlay hOverlay => ?_
  -- a copy is what the path stands for
  have hUpper : ∀ v, overlay = some v →
      ∃ loc, resolve env w₀.fs rel = some loc ∧ follow env w₀.fs loc = .ok v.1 := by
    intro v hv
    obtain ⟨loc, hLoc, hGet, hFollow⟩ := hOverlay.2 v hv
    refine ⟨loc, ?_, hFollow⟩
    simp [resolve, hClear, hLoc, Option.filter, hGet]
  refine triple_ite (fun hLink => triple_pure fun w hw => ⟨hw, ?_⟩) (fun _ => ?_)
  · cases overlay with
    | none => cases hLink
    | some v =>
      obtain ⟨loc, hLoc, hFollow⟩ := hUpper v rfl
      exact ⟨v.1, loc, rfl, hLoc, hFollow⟩
  · refine triple_learn (triple_dirSide _) fun backing hBacking => ?_
    refine triple_learn (triple_ensure fun _ _ => trivial) fun _ hOne => ?_
    refine triple_pure fun w hw => ⟨hw, ?_⟩
    cases overlay with
    | some v =>
      obtain ⟨loc, hLoc, hFollow⟩ := hUpper v rfl
      exact ⟨v.1, loc, rfl, hLoc, hFollow⟩
    | none =>
      cases backing with
      | none => cases hOne
      | some v =>
        obtain ⟨loc, hLoc, hGet, hFollow⟩ := hBacking.2 v rfl
        refine ⟨v.1, loc, rfl, ?_, hFollow⟩
        have hNoCopy : (overlayPath env rel).filter (fun l => (w₀.fs.get l).isSome) = none := by
          cases hPath : overlayPath env rel with
          | none => rfl
          | some l => simp [Option.filter, hOverlay.1 rfl l hPath]
        rw [resolve, hClear, hNoCopy, hLoc]
        simp [Option.filter, hGet]

theorem directoryMeta_of_follow {dest : Loc} (hLoc : resolve env fs rel = some loc)
    (hFollow : follow env fs loc = .ok dest) (hNode : fs.get dest = some node) :
    directoryMeta env fs rel = some (fs.metaOf node) := by
  simp [directoryMeta, hLoc, followNode, hFollow, HostFs.lookup, hNode, Except.toOption]

theorem triple_parentMetadata (rel : Path) :
    Triple env (At w₀) (parentMetadata rel)
      (fun info w => At w₀ w ∧ directoryMeta env w₀.fs rel.dropLast = some info)
      (fun _ => True) := by
  refine triple_bind (triple_resolveDir rel.dropLast) fun view => triple_fact ?_
  rintro ⟨dest, loc, hDest, hLoc, hFollow⟩
  rw [hDest]
  refine (triple_infoAt dest).post ?_
  rintro info w ⟨hw, node, hNode, rfl⟩
  exact ⟨hw, directoryMeta_of_follow hLoc hFollow hNode⟩

/-- The metadata through links of an object that is none itself. -/
theorem triple_followedInfo (hLoc : resolve env w₀.fs rel = some loc)
    (hNode : w₀.fs.get loc = some node) (hKind : node.kind ≠ .symlink) :
    Triple env (At w₀) (metadata loc)
      (fun info w => At w₀ w ∧ visibleMeta env w₀.fs rel = some info) (fun _ => True) := by
  refine triple_imp (triple_query (untimed_at w₀) _) ?_ (fun _ _ => trivial)
  rintro info w ⟨hw, n, hInfo⟩
  obtain ⟨found, hFound, rfl⟩ := map_eq_ok.mp hInfo
  simp only [hw.1] at hFound ⊢
  rw [followNode_of_not_symlink hNode hKind] at hFound
  cases hFound
  exact ⟨hw, visibleMeta_of_resolve hLoc hNode⟩

theorem triple_notLink (loc : Loc) :
    Triple env (At w₀) (ensureNotSymlink loc) (fun _ w => At w₀ w ∧
      ∃ node, w₀.fs.get loc = some node ∧ node.kind ≠ .symlink) (fun _ => True) :=
  triple_at (Q := fun _ fs => ∃ node, fs.get loc = some node ∧ node.kind ≠ .symlink)
    (triple_ensureNotSymlink (untimed_at w₀) loc)

end Looking

/-! ## What a request has checked -/

section Enforced

variable {env : Env} {w₀ : World} {c : FuseContext} {α : Type}

variable {Q : α → World → Prop} {rel : Path}

theorem triple_context {P E : World → Prop} {f : FuseContext → Op α} (h : Triple env P (f c) Q E) :
    Triple env P (requireContext (some c) >>= f) Q E := h

theorem triple_mutable {f : Unit → Op α} (h : Triple env (At w₀) (f ()) Q (fun _ => True)) :
    Triple env (At w₀) (ensureMutable >>= f) Q (fun _ => True) :=
  triple_seq (keeps_ensureMutable.any) h

/-- The check that every new entry passes. -/
theorem triple_mayEnter {f : Unit → Op α}
    (h : MayEnter env w₀ c rel → Triple env (At w₀) (f ()) Q (fun _ => True)) :
    Triple env (At w₀) (parentMetadata rel >>= fun parent =>
      ensureDirCreationAllowed parent c.uid c.gid >>= f) Q (fun _ => True) := by
  refine triple_learn (triple_parentMetadata rel) fun parent hParent => ?_
  refine triple_learn (triple_ensure fun _ _ => trivial) fun _ hAllowed => ?_
  exact h ⟨parent, hParent, hAllowed⟩

theorem triple_checkNewEntry (rel : Path) :
    Triple env (At w₀) (checkNewEntry rel c) (fun _ w => At w₀ w ∧ MayEnter env w₀ c rel)
      (fun _ => True) := by
  refine triple_mayEnter fun hEnter => ?_
  refine triple_imp (keeps_ensureUnionEntryAbsent rel) ?_ (fun _ _ => trivial)
  exact fun _ w hw => ⟨hw, hEnter⟩

theorem triple_removalAllowed {parent target : Meta}
    (hParent : directoryMeta env w₀.fs rel.dropLast = some parent)
    (hTarget : visibleMeta env w₀.fs rel = some target) :
    Triple env (At w₀) (ensureRemovalAllowed parent target c.uid c.gid)
      (fun _ w => At w₀ w ∧ MayEnter env w₀ c rel ∧ MayReplace env w₀ c rel) (fun _ => True) := by
  refine triple_learn (triple_ensure fun _ _ => trivial) fun _ hAllowed => ?_
  refine (triple_ensure fun _ _ => trivial).post ?_
  rintro - w ⟨hw, hSticky⟩
  refine ⟨hw, ⟨parent, hParent, hAllowed⟩, fun parent' target' hParent' hTarget' => ?_⟩
  cases hParent.symm.trans hParent'
  cases hTarget.symm.trans hTarget'
  exact hSticky

theorem enforced_unlink (rel : Path) :
    Triple env (At w₀) (unlink rel (some c))
      (fun _ _ => MayEnter env w₀ c rel ∧ MayReplace env w₀ c rel) (fun _ => True) := by
  refine triple_ask (triple_context (triple_mutable ?_))
  refine triple_learn (triple_found rel) fun loc hLoc => ?_
  refine triple_learn (triple_visibleInfo hLoc) fun info hInfo => ?_
  refine triple_then ((keeps_ensure _ _).any) ?_
  refine triple_learn (triple_parentMetadata rel) fun parent hParent => ?_
  exact triple_check (triple_removalAllowed hParent hInfo)

theorem enforced_rmdir (rel : Path) :
    Triple env (At w₀) (rmdir rel (some c))
      (fun _ _ => MayEnter env w₀ c rel ∧ MayReplace env w₀ c rel) (fun _ => True) := by
  refine triple_ask (triple_context (triple_mutable ?_))
  refine triple_bind ((keeps_dirIsEmpty (untimed_at w₀) rel).any) fun _ => ?_
  refine triple_bind ((keeps_ensure _ _).any) fun _ => ?_
  refine triple_learn (triple_parentMetadata rel) fun parent hParent => ?_
  refine triple_learn (triple_found rel) fun loc hLoc => ?_
  refine triple_learn (triple_visibleInfo hLoc) fun info hInfo => ?_
  exact triple_check (triple_removalAllowed hParent hInfo)

/-- The target of a rename is looked at, unless the host reports an error. -/
theorem triple_destMetadata (rel : Path) :
    Triple env (At w₀) (destMetadata rel) (fun found w => At w₀ w ∧
      ((∃ k, (env.fault k).isSome = true) ∨ found = visibleMeta env w₀.fs rel))
      (fun _ => True) := by
  refine triple_learn (triple_look fun env fs => resolve env fs rel) fun found hFound => ?_
  cases hLoc : found with
  | none =>
    refine triple_pure fun w hw => ⟨hw, .inr ?_⟩
    exact (visibleMeta_of_hidden (hFound ▸ hLoc)).symm
  | some loc =>
    have hResolve : resolve env w₀.fs rel = some loc := hFound ▸ hLoc
    obtain ⟨node, hNode⟩ := get_of_resolve hResolve
    intro w hw
    simp only [tryCatch_run, bind_run, symlinkMetadata, query]
    cases hFault : env.fault w.calls with
    | some fault => exact ⟨hw, .inl ⟨w.calls, by simp [hFault]⟩⟩
    | none =>
      have hLookup : w.fs.lookup loc = .ok node := by
        rw [hw.1]
        exact w₀.fs.lookup_eq_ok.mpr hNode
      simp only [hLookup]
      refine ⟨hw, .inr ?_⟩
      rw [visibleMeta_of_resolve hResolve hNode, ← hw.1]

theorem enforced_rename (source target : Path) :
    Triple env (At w₀) (rename source target (some c))
      (fun _ _ => (MayEnter env w₀ c source ∧ MayReplace env w₀ c source) ∧
        MayEnter env w₀ c target ∧
        ((∃ k, (env.fault k).isSome = true) ∨ MayReplace env w₀ c target))
      (fun _ => True) := by
  refine triple_ask (triple_context (triple_mutable (triple_check ?_)))
  refine triple_learn (triple_found source) fun loc hLoc => ?_
  refine triple_learn (triple_visibleInfo hLoc) fun info hInfo => ?_
  refine triple_learn (triple_parentMetadata source) fun parent hParent => ?_
  refine triple_learn (triple_removalAllowed hParent hInfo) fun _ hSource => ?_
  refine triple_bind (triple_parentMetadata target) fun parent' => triple_fact fun hParent' => ?_
  refine triple_learn (triple_ensure fun _ _ => trivial) fun _ hAllowed => ?_
  refine triple_learn (triple_destMetadata target) fun dest hDest => ?_
  refine (triple_ensure fun _ _ => trivial).post ?_
  rintro - w ⟨hw, hSticky⟩
  refine ⟨hw, hSource, ⟨parent', hParent', hAllowed⟩, hDest.imp_right ?_⟩
  rintro rfl parent'' target'' hParent'' hTarget
  rw [hParent'] at hParent''
  cases hParent''
  rw [hTarget] at hSticky
  exact hSticky

theorem mem_segments {p dir : Path} : dir ∈ segments p ↔ dir <+: p := by
  simp only [segments, mem_reverse, mem_map, mem_range]
  constructor
  · rintro ⟨n, -, rfl⟩
    exact take_prefix n p
  · intro h
    exact ⟨dir.length, Nat.lt_succ_of_le h.length_le, (prefix_iff_eq_take.mp h).symm⟩

theorem triple_searchDir (dir : Loc) :
    Triple env (At w₀) (metadata dir >>= fun info => ensureSearchAllowed info c.uid c.gid)
      (fun _ w => At w₀ w ∧ ∀ node, followNode env w₀.fs dir = .ok node →
        accessAllowed (w₀.fs.metaOf node) c.uid c.gid 0o1 = true) (fun _ => True) := by
  refine triple_bind ((triple_query (untimed_at w₀) _).any) fun info => ?_
  refine (triple_ensure fun _ _ => trivial).post ?_
  rintro - w ⟨⟨hw, n, hInfo⟩, hAllowed⟩
  refine ⟨hw, fun node hNode => ?_⟩
  simp only [hw.1, hNode] at hInfo
  cases hInfo
  exact hAllowed

/-- A directory that is checked in both trees is checked where it is visible. -/
theorem triple_checkSearch (rel : Path) :
    Triple env (At w₀) (checkSearch c rel) (fun _ w => At w₀ w ∧
      ∀ info, directoryMeta env w₀.fs rel = some info → accessAllowed info c.uid c.gid 0o1 = true)
      (fun _ => True) := by
  refine triple_bind (triple_resolveDir rel) fun view => triple_fact ?_
  rintro ⟨dest, loc, hDest, hLoc, hFollow⟩
  obtain ⟨node, hNode, hKind⟩ := followAux_ok hFollow
  have hDirectory := directoryMeta_of_follow hLoc hFollow hNode
  have hVisible : ∀ w, At w₀ w → (∀ node, followNode env w₀.fs dest = .ok node →
      accessAllowed (w₀.fs.metaOf node) c.uid c.gid 0o1 = true) → At w₀ w ∧
      ∀ info, directoryMeta env w₀.fs rel = some info →
        accessAllowed info c.uid c.gid 0o1 = true := by
    intro w hw hAllowed
    refine ⟨hw, fun info hInfo => ?_⟩
    rw [hDirectory] at hInfo
    cases hInfo
    exact hAllowed node (followNode_of_not_symlink hNode hKind)
  obtain ⟨overlay, backing⟩ := view
  cases overlay with
  | some dir =>
    cases hDest
    refine triple_learn (triple_searchDir dest) fun _ hAllowed => ?_
    refine triple_imp (P := At w₀) (keeps_ifSome fun dir _ => ?_)
      (fun _ w hw => hVisible w hw hAllowed) (fun _ _ => trivial)
    exact keeps_seq (keeps_metadata (untimed_at w₀) dir) <| keeps_ensure _ _
  | none =>
    cases backing with
    | none => cases hDest
    | some dir =>
      cases hDest
      exact (triple_searchDir dest).post (fun _ w hw => hVisible w hw.1 hw.2)

theorem enforced_link (source target : Path) :
    Triple env (At w₀) (link source target (some c))
      (fun _ _ => MaySearch env w₀ c source ∧ MayEnter env w₀ c target) (fun _ => True) := by
  refine triple_ask (triple_context (triple_mutable ?_))
  refine triple_learn (triple_found source) fun loc hLoc => ?_
  refine triple_learn (triple_each triple_checkSearch _) fun _ hSearch => ?_
  refine triple_bind ((keeps_symlinkMetadata (untimed_at w₀) loc).any)
    fun _ => ?_
  refine triple_learn (triple_checkNewEntry target) fun _ hEnter => ?_
  refine triple_settled ⟨?_, hEnter⟩
  intro dir hDir hNe
  refine hSearch dir (mem_reverse.mpr (mem_segments.mpr ?_))
  refine (above_iff ?_).mp ⟨hDir, hNe⟩
  rintro rfl
  exact hNe (prefix_nil.mp hDir)

/-- What an open with the flags has been allowed on the object that the path shows. -/
def OpenAllowed (env : Env) (w : World) (c : FuseContext) (rel : Path) (flags : Nat) : Prop :=
  ∃ info bits, visibleMeta env w.fs rel = some info ∧ openAccessBits flags = .ok bits ∧
    accessAllowed info c.uid c.gid bits = true

theorem triple_checkCreate {existing : Option Loc} {flags : Nat}
    (hExisting : existing = resolve env w₀.fs rel) :
    Triple env (At w₀) (checkCreate rel existing flags c) (fun _ w => At w₀ w ∧
      if (visibleMeta env w₀.fs rel).isSome then OpenAllowed env w₀ c rel flags
      else MayEnter env w₀ c rel) (fun _ => True) := by
  unfold checkCreate
  cases hLoc : existing with
  | none =>
    have hNone := visibleMeta_of_hidden (hExisting ▸ hLoc)
    rw [hNone]
    refine triple_learn (triple_parentMetadata rel) fun parent hParent => ?_
    refine (triple_ensure fun _ _ => trivial).post ?_
    exact fun _ w hw => ⟨hw.1, ⟨parent, hParent, hw.2⟩⟩
  | some loc =>
    have hResolve : resolve env w₀.fs rel = some loc := hExisting ▸ hLoc
    refine triple_bind ((keeps_metadata (untimed_at w₀) loc.parent).any)
      fun _ => ?_
    refine triple_bind ((keeps_ensure _ _).any) fun _ => ?_
    refine triple_bind ((keeps_ensure _ _).any) fun _ => ?_
    refine triple_seq (triple_notLink loc) <| triple_fact ?_
    rintro ⟨node, hNode, hKind⟩
    refine triple_learn (triple_followedInfo hResolve hNode hKind) fun info hInfo => ?_
    refine triple_then ((keeps_ensureRegularFile info).any) ?_
    refine triple_learn ((triple_ensureOpenFlagsAllowed info c.uid c.gid flags).weaken
      fun _ _ => trivial) fun bits hBits => triple_pure fun w hw => ⟨hw, ?_⟩
    rw [hInfo]
    exact ⟨info, bits, hInfo, hBits⟩

theorem enforced_create (rel : Path) (mode flags : Nat) :
    Triple env (At w₀) (createFileOp rel mode flags (some c)) (fun _ _ =>
      if (visibleMeta env w₀.fs rel).isSome then OpenAllowed env w₀ c rel flags
      else MayEnter env w₀ c rel) (fun _ => True) := by
  refine triple_ask (triple_context (triple_mutable ?_))
  refine triple_learn ((triple_result fun _ _ => trivial)) fun bits _ => ?_
  refine triple_learn (triple_look fun env fs => resolve env fs rel) fun existing hExisting => ?_
  exact triple_check (triple_checkCreate hExisting)

theorem triple_openFileTarget {loc : Loc} {info : Meta} {flags : Nat}
    (hLoc : resolve env w₀.fs rel = some loc)
    (hInfo : ∃ node, followNode env w₀.fs loc = .ok node ∧ info = w₀.fs.metaOf node) :
    Triple env (At w₀) (openFileTarget rel loc info flags c)
      (fun _ _ => Writes flags → OpenAllowed env w₀ c rel flags) (fun _ => True) := by
  refine triple_ask (triple_then ((keeps_ensureRegularFile info).any)
    ?_)
  refine triple_learn ((triple_ensureOpenFlagsAllowed info c.uid c.gid flags).weaken
    fun _ _ => trivial) fun bits hBits => ?_
  refine triple_ite (fun _ => ?_) (fun hRead => triple_settled ?_)
  · refine triple_seq (triple_notLink loc) <| triple_fact ?_
    rintro ⟨node, hNode, hKind⟩
    obtain ⟨node', hNode', rfl⟩ := hInfo
    rw [followNode_of_not_symlink hNode hKind] at hNode'
    cases hNode'
    exact triple_settled fun _ => ⟨_, bits, visibleMeta_of_resolve hLoc hNode, hBits⟩
  · rintro ⟨bits', hBits', hBit⟩
    rw [hBits.1] at hBits'
    cases hBits'
    exact absurd hBit hRead

theorem enforced_open (rel : Path) (flags : Nat) :
    Triple env (At w₀) (openOp rel .file flags (some c))
      (fun _ _ => Writes flags → OpenAllowed env w₀ c rel flags) (fun _ => True) := by
  refine triple_ask (triple_context ?_)
  refine triple_learn (triple_found rel) fun loc hLoc => ?_
  refine triple_learn (triple_at (Q := fun info fs => ∃ node, followNode env fs loc = .ok node ∧
    info = fs.metaOf node) (triple_followedMetadata (untimed_at w₀) loc)) fun info hInfo => ?_
  refine triple_then ((keeps_ensureKind _ _).any) ?_
  exact triple_established (triple_openFileTarget hLoc hInfo)

theorem triple_onlyIf_ensure {P : World → Prop} {b ok : Bool} {e : Errno} :
    Triple env P (onlyIf b (ensure ok e)) (fun _ w => P w ∧ (b = true → ok = true))
      (fun _ => True) := by
  refine triple_ite (fun hb => ?_) (fun hb => triple_pure fun w hw => ⟨hw, fun h => absurd h hb⟩)
  refine (triple_ensure fun _ _ => trivial).post ?_
  exact fun _ w hw => ⟨hw.1, fun _ => hw.2⟩

/-- The two checks on the owner that both kinds of `setattr` make. -/
theorem owner_of_checks {info : Meta} {change : Setattr} (hUser : c.uid ≠ 0)
    (hMode : change.mode.isSome = true → (c.uid == 0 || info.uid == c.uid) = true)
    (hOwner : (change.uid.isSome || change.gid.isSome) = true →
      ownershipAllowed info c.uid c.gid change.uid change.gid = true)
    (hChange : change.permissions = true) : info.uid = c.uid := by
  simp only [Setattr.permissions, Bool.or_eq_true] at hChange
  rcases hChange with (hChange | hChange) | hChange
  · simpa [hUser] using hMode hChange
  · have hAllowed := hOwner (by simp [hChange])
    simp only [ownershipAllowed, Bool.or_eq_true, beq_iff_eq, hUser, false_or,
      Bool.and_eq_true] at hAllowed
    exact hAllowed.1.1
  · have hAllowed := hOwner (by simp [hChange])
    simp only [ownershipAllowed, Bool.or_eq_true, beq_iff_eq, hUser, false_or,
      Bool.and_eq_true] at hAllowed
    exact hAllowed.1.1

theorem enforced_setattr (hUser : c.uid ≠ 0) (rel : Path) (change : Setattr) :
    Triple env (At w₀) (setattr rel change (some c))
      (fun _ _ => ∃ info, visibleMeta env w₀.fs rel = some info ∧ MayChange c info change)
      (fun _ => True) := by
  refine triple_ask (triple_context ?_)
  refine triple_learn (triple_found rel) fun loc hLoc => ?_
  refine triple_seq (triple_notLink loc) <| triple_fact ?_
  rintro ⟨node, hNode, hKind⟩
  refine triple_learn (triple_followedInfo hLoc hNode hKind) fun info hInfo => ?_
  refine triple_check ?_
  refine triple_learn triple_onlyIf_ensure fun _ hMode => ?_
  refine triple_learn triple_onlyIf_ensure fun _ hOwner => ?_
  refine triple_onlyIf_ensure.post ?_
  rintro - w ⟨hw, hSize⟩
  exact ⟨hw, info, hInfo, owner_of_checks hUser hMode hOwner, hSize⟩

theorem enforced_setattrFh (hUser : c.uid ≠ 0) (path : Path) (handle : Nat) (change : Setattr) :
    Triple env (At w₀) (setattrFh path handle change c)
      (fun _ _ => ∃ entry file, w₀.handles.lookup handle = some entry ∧ entry.file = some file ∧
        (change.permissions = true → (w₀.fs.metaOf file).uid = c.uid)) (fun _ => True) := by
  refine triple_bind ((triple_cloneFileHandleWithPolicy (untimed_at w₀) path handle _).weaken
    fun _ _ => trivial) ?_
  rintro ⟨file, bits, blocked⟩ w ⟨hw, entry, hEntry, -, hFile, -⟩
  rw [hw.2] at hEntry
  refine triple_bind (P := At w₀) (E := fun _ => True)
    ((keeps_ensure _ _).any) (fun _ => ?_) w hw
  refine triple_bind ((triple_query (untimed_at w₀) _).any) fun info => ?_
  rintro w ⟨hw, n, hInfo⟩
  cases hInfo
  refine triple_learn triple_onlyIf_ensure (fun _ hMode => ?_) w hw
  refine triple_learn triple_onlyIf_ensure fun _ hOwner => ?_
  refine triple_settled ⟨entry, file, hEntry, hFile, fun hChange => ?_⟩
  rw [← hw.1]
  exact owner_of_checks hUser hMode hOwner hChange

theorem enforced_respond {x : Op α} {f : α → Response} {φ : Prop}
    (h : Triple env (At w₀) x (fun _ _ => φ) (fun _ => True)) {response : Response}
    (hOk : (respond f x env w₀).1 = .ok response) : φ :=
  (triple_established h).of_ok (a := response) ⟨rfl, rfl⟩ hOk

end Enforced

/-! ## Exactly the unchecked permissions may be missing -/

theorem mayWrite_of_openAllowed {env : Env} {w : World} {c : FuseContext} (hUser : c.uid ≠ 0)
    {rel : Path} {flags : Nat} (h : OpenAllowed env w c rel flags) (hWrites : Writes flags) :
    MayWrite env w c rel := by
  obtain ⟨info, bits, hInfo, hBits, hAllowed⟩ := h
  exact ⟨info, hInfo, accessAllowed_write hUser hBits hWrites hAllowed⟩

/-- A change that succeeds was permitted, unless it is one that the code does not check. -/
theorem permitted_iff (env : Env) (w : World) (c : FuseContext) (hUser : c.uid ≠ 0)
    (q : Mutation) (response : Response)
    (hOk : (exec (q.request c) env w).1 = .ok response) :
    q.Permitted env w c ↔ q.Unchecked env w c := by
  cases q with
  | create path mode flags =>
    have h := enforced_respond (enforced_create path mode flags) hOk
    simp only [Mutation.Permitted, Mutation.Unchecked]
    cases hInfo : visibleMeta env w.fs path with
    | none =>
      rw [hInfo] at h
      simp only [Option.isSome_none, Bool.false_eq_true, if_false] at h ⊢
      rw [maySearch_iff_of_mayEnter hUser h]
      simp [h]
    | some info =>
      rw [hInfo] at h
      simp only [Option.isSome_some, if_true] at h ⊢
      refine and_iff_left ⟨?_, by simp⟩
      rintro info' ⟨⟩ hWrites
      obtain ⟨info'', hInfo'', hAllowed⟩ := mayWrite_of_openAllowed hUser h hWrites
      rw [hInfo] at hInfo''
      cases hInfo''
      exact hAllowed
  | mkdir path mode =>
    have h := enforced_respond (triple_ask <| triple_context <| triple_mutable <|
      triple_mayEnter fun hEnter => triple_settled hEnter) hOk
    simp only [Mutation.Permitted, Mutation.Unchecked, maySearch_iff_of_mayEnter hUser h, h,
      and_true]
  | symlink path target =>
    have h := enforced_respond (triple_context <| triple_mutable <| triple_check <|
      triple_checkNewEntry path) hOk
    simp only [Mutation.Permitted, Mutation.Unchecked, maySearch_iff_of_mayEnter hUser h, h,
      and_true]
  | link source target =>
    have h := enforced_respond (enforced_link source target) hOk
    simp only [Mutation.Permitted, Mutation.Unchecked, maySearch_iff_of_mayEnter hUser h.2, h.1,
      h.2, and_true, true_and]
  | unlink path =>
    have h := enforced_respond (enforced_unlink path) hOk
    simp only [Mutation.Permitted, Mutation.Unchecked, maySearch_iff_of_mayEnter hUser h.1, h,
      and_true]
  | rmdir path =>
    have h := enforced_respond (enforced_rmdir path) hOk
    simp only [Mutation.Permitted, Mutation.Unchecked, maySearch_iff_of_mayEnter hUser h.1, h,
      and_true]
  | rename source target =>
    obtain ⟨⟨hEnter, hReplace⟩, hEnter', hReplace'⟩ :=
      enforced_respond (enforced_rename source target) hOk
    simp only [Mutation.Permitted, Mutation.Unchecked, maySearch_iff_of_mayEnter hUser hEnter,
      maySearch_iff_of_mayEnter hUser hEnter', hEnter, hReplace, hEnter', and_true, true_and]
    refine and_congr_right fun _ => and_congr_right fun _ => ⟨fun h _ => h, fun h => ?_⟩
    exact hReplace'.elim h id
  | openFile path flags =>
    have h := enforced_respond (enforced_open path flags) hOk
    refine forall_congr' fun hWrites => and_iff_left ?_
    exact mayWrite_of_openAllowed hUser (h hWrites) hWrites
  | setattr path change =>
    have h := enforced_respond (enforced_setattr hUser path change) hOk
    exact and_iff_left h
  | setattrFh path handle change =>
    obtain ⟨entry, file, hEntry, hFile, hOwner⟩ :=
      enforced_respond (triple_context (enforced_setattrFh hUser path handle change)) hOk
    refine and_congr_right fun _ => ⟨?_, fun h => ⟨entry, file, hEntry, hFile, hOwner, ?_⟩⟩
    · rintro ⟨entry', file', hEntry', hFile', hChange⟩ hSize entry'' file'' hEntry'' hFile''
      rw [hEntry'] at hEntry''
      cases hEntry''
      rw [hFile'] at hFile''
      cases hFile''
      exact hChange.2 hSize
    · exact fun hSize => h hSize entry file hEntry hFile
  | setxattr path name value flags => exact Iff.rfl
  | removexattr path name => exact Iff.rfl

/-! ## Two changes that were not permitted -/

/-- A user other than the superuser. -/
def visitor : FuseContext := ⟨1000, 1000⟩

/-- A directory that anybody may write, below one that only the superuser may search, and a
file of the superuser. -/
def closedDir : World := started (fsOf [⟨.cow, [nameOf "d"], .dir, 0o700, []⟩,
  ⟨.cow, [nameOf "d", nameOf "e"], .dir, 0o777, []⟩,
  ⟨.backing, [nameOf "f"], .file, 0o644, [7]⟩])

def sampleMkdir : Mutation := .mkdir [nameOf "d", nameOf "e", nameOf "x"] 0o755

def sampleSetxattr : Mutation := .setxattr [nameOf "f"] (nameOf "user.a") [1] 0

theorem exists_ok {α ε : Type} {x : Except ε α} (h : x.isOk = true) : ∃ a, x = .ok a := by
  cases x with
  | error e => cases h
  | ok a => exact ⟨a, rfl⟩

/-- The visitor makes a directory where they cannot go, and sets an attribute of a file that
they may not write. -/
theorem changes_not_permitted :
    ((∃ response, (exec (sampleMkdir.request visitor) sampleEnv closedDir).1 = .ok response) ∧
      ¬ sampleMkdir.Permitted sampleEnv closedDir visitor) ∧
    (∃ response, (exec (sampleSetxattr.request visitor) sampleEnv closedDir).1 = .ok response) ∧
      ¬ sampleSetxattr.Permitted sampleEnv closedDir visitor := by
  refine ⟨⟨exists_ok (by decide +kernel), ?_⟩, exists_ok (by decide +kernel), ?_⟩
  · rintro ⟨hSearch, -⟩
    have hClosed : (directoryMeta sampleEnv closedDir.fs [nameOf "d"]).any (fun info =>
        !accessAllowed info visitor.uid visitor.gid 0o1) = true := by decide +kernel
    obtain ⟨info, hInfo, hDenied⟩ := (Option.any_eq_true _ _).mp hClosed
    have hAllowed := hSearch [nameOf "d"] ⟨_, rfl⟩ (by simp) info hInfo
    rw [hAllowed] at hDenied
    cases hDenied
  · rintro ⟨-, info, hInfo, hAllowed⟩
    have hOwned : (visibleMeta sampleEnv closedDir.fs [nameOf "f"]).all (fun info =>
        !accessAllowed info visitor.uid visitor.gid 0o2) = true := by decide +kernel
    rw [hInfo, Option.all_some, hAllowed] at hOwned
    cases hOwned

/-- The superuser's directory is open to the visitor, and so is everything above it. -/
def openDir : World := started (fsOf [⟨.cow, [nameOf "d"], .dir, 0o777, []⟩])

/-- A new directory in one that everyone may write to. -/
theorem permitted_iff_mkdir :
    (Mutation.mkdir [nameOf "d", nameOf "x"] 0o755).Permitted sampleEnv openDir visitor := by
  obtain ⟨response, hOk⟩ : ∃ response,
      (exec ((Mutation.mkdir [nameOf "d", nameOf "x"] 0o755).request visitor) sampleEnv
        openDir).1 = .ok response := exists_ok (by decide +kernel)
  refine (permitted_iff sampleEnv openDir visitor (by decide) _ response hOk).mpr ?_
  intro dir hDir hNe info hInfo
  have hRoot : dir = [] := by
    rcases prefix_cons_iff.mp hDir with rfl | ⟨rest, rfl, hRest⟩
    · rfl
    · rw [prefix_nil.mp hRest] at hNe
      exact absurd rfl hNe
  have hOpen : (directoryMeta sampleEnv openDir.fs []).all (fun info =>
      accessAllowed info visitor.uid visitor.gid 0o1) = true := by decide +kernel
  rw [hRoot] at hInfo
  rw [hInfo] at hOpen
  exact hOpen

end FabricFs.Overlay
