import FabricFs.Lib.Segments
import FabricFs.Host.Lossy
import FabricFs.Service.InodeMap
import FabricFs.Client.Entries

/-!
# What a path is on both sides

`server/paths.rs` and `std::path` on strings. The protocol, the cache of the client, the
server and the inode map each have their own functions on path strings. All of them agree
with the list of components that an accepted path stands for.

* `render_parts`: an accepted path is its list of components.
* `normalizePath_render`, `parentRel_render`, `hostPath_render`: the server's functions on
  such lists.
* `accepted_paths_agree`: the agreement for all accepted paths. The subtree tests of the
  protocol and of the cache are for roots other than `/`, the server's is for all.
-/

namespace FabricFs.Server

open Lib Lib.Segments Protocol

/-! ## `std::path` -/

inductive Component where
  | rootDir | curDir | parentDir
  | normal (name : Text)
  deriving DecidableEq, Repr

/-- The component between two slashes. -/
def segmentComponent (segment : Text) : Option Component :=
  if segment = [] ∨ segment = [46] then none
  else if segment = [46, 46] then some .parentDir
  else some (.normal segment)

/-- What stands before the named components. -/
def leadingComponent (path : Text) : List Component :=
  if path.head? = some slash then [.rootDir]
  else if (path.splitOn slash).head? = some [46] then [.curDir]
  else []

/-- `Path::components`. -/
def pathComponents (path : Text) : List Component :=
  leadingComponent path ++ (path.splitOn slash).filterMap segmentComponent

/-- `Path::join`. -/
def joinPath (base rel : Text) : Text :=
  if rel.head? = some slash then rel
  else if base = [] ∨ base.getLast? = some slash then base ++ rel
  else base ++ slash :: rel

/-- `Path::parent` of an absolute path: the last component goes, with what separates it. -/
def pathParent (path : Text) : Option Text :=
  let skipped := fun segment : Text => segment == [] || segment == [46]
  let root := if path.head? = some slash then rootPath else []
  match ((path.drop root.length).splitOn slash).reverse.dropWhile skipped with
  | [] => none
  | _ :: rest => some (root ++ [slash].intercalate (rest.dropWhile skipped).reverse)

/-! ## `server/paths.rs` -/

/-- One round of the loop of `normalize_path`. -/
def pushComponent (parts : List Text) : Component → List Text
  | .parentDir => parts.dropLast
  | .normal segment => parts ++ [toStringLossy segment]
  | _ => parts

/-- It never fails. -/
def normalizePath (path : Text) : Except Errno Text :=
  let parts := (pathComponents (if path = [] then rootPath else path)).foldl pushComponent []
  .ok (if parts = [] then rootPath else slash :: [slash].intercalate parts)

def stripRoot (path : Text) : Text :=
  (path.dropWhile (· == slash)).rdropWhile (· == slash)

def appendRel (base name : Text) : Text :=
  if base = rootPath then slash :: name
  else base.rdropWhile (· == slash) ++ slash :: name

def parentRel (rel : Text) : Text :=
  match pathParent rel with
  | none => rootPath
  | some parent =>
    let s := toStringLossy parent
    if s = [] then rootPath else s

def descendantSuffix (path ancestor : Text) : Option Text :=
  if path = ancestor then some []
  else if ancestor = rootPath then if path.head? = some slash then some path else none
  else do
    let suffix ← stripPrefix ancestor path
    if suffix.head? = some slash then some suffix else none

/-- The host path of a path below a storage root. -/
def hostPath (root path : Text) : Text := joinPath root (stripRoot path)

/-! ## Paths as lists of components -/

/-- The components of an accepted path. -/
def parts (path : Text) : List Text :=
  if path = rootPath then [] else (path.splitOn slash).drop 1

/-- The path of a list of components. -/
def render : List Text → Text
  | [] => rootPath
  | part :: rest => joined slash (part :: rest)

/-- A component of an accepted path. -/
structure Part (part : Text) : Prop where
  valid : validComponent part = true
  apart : slash ∉ part

theorem Part.ne_nil {part : Text} (h : Part part) : part ≠ [] := by
  rintro rfl
  cases h.valid

theorem Part.segmentComponent {part : Text} (h : Part part) :
    segmentComponent part = some (.normal part) := by
  have hValid := h.valid
  simp only [validComponent, Bool.and_eq_true, Bool.not_eq_true', List.isEmpty_eq_false_iff,
    bne_iff_ne] at hValid
  rw [Server.segmentComponent, if_neg (by simp [hValid.1.1, hValid.1.2]), if_neg hValid.2]

theorem Part.not_skipped {part : Text} (h : Part part) :
    (part == [] || part == [46]) = false := by
  have hValid := h.valid
  simp only [validComponent, Bool.and_eq_true, Bool.not_eq_true', List.isEmpty_eq_false_iff,
    bne_iff_ne] at hValid
  simp [hValid.1.1, hValid.1.2]

theorem joined_ne_root {part : Text} (h : Part part) (rest : List Text) :
    joined slash (part :: rest) ≠ rootPath := by
  intro hRoot
  have hTail : part ++ joined slash rest = [] := (List.cons.inj hRoot).2
  exact h.ne_nil (List.append_eq_nil_iff.mp hTail).1

theorem render_ne_root {part : Text} {rest : List Text} (h : ∀ p ∈ part :: rest, Part p) :
    render (part :: rest) ≠ rootPath :=
  joined_ne_root (h part List.mem_cons_self) rest

/-- An accepted path is the path of its components. -/
theorem render_parts {path : Text} (hValid : validPath path = true) :
    (∀ part ∈ parts path, Part part) ∧ render (parts path) = path := by
  by_cases hRoot : path = rootPath
  · rw [parts, if_pos hRoot]
    exact ⟨fun _ hMem => (List.not_mem_nil hMem).elim, hRoot.symm⟩
  simp only [validPath, Bool.and_eq_true, beq_iff_eq, Bool.or_eq_true] at hValid
  obtain ⟨⟨hHead, -⟩, hAll⟩ := hValid
  have hAll := List.all_eq_true.mp (hAll.resolve_left hRoot)
  have hJoined := joined_splitOn hHead
  rw [parts, if_neg hRoot]
  refine ⟨fun part hMem => ⟨hAll part hMem, ?_⟩, ?_⟩
  · exact not_mem_of_mem_splitOn (List.mem_of_mem_drop hMem)
  · cases hParts : (path.splitOn slash).drop 1 with
    | nil =>
      rw [hParts] at hJoined
      rw [← hJoined] at hHead
      cases hHead
    | cons part rest =>
      rw [hParts] at hJoined
      exact hJoined

/-- Every component but the last is that of the parent. -/
theorem render_concat {front : List Text} {last : Text} :
    render (front ++ [last]) = joined slash front ++ slash :: last := by
  have hRender : render (front ++ [last]) = joined slash (front ++ [last]) := by
    cases front <;> rfl
  rw [hRender, joined_append]
  simp

/-! ## Texts without outer slashes -/

theorem trimEnd_append {front last : Text} (hLast : Part last) :
    (front ++ last).rdropWhile (· == slash) = front ++ last := by
  rw [List.rdropWhile_eq_self_iff]
  intro hNonempty hSlash
  rw [List.getLast_append_of_ne_nil hNonempty hLast.ne_nil, beq_iff_eq] at hSlash
  exact hLast.apart (hSlash ▸ List.getLast_mem hLast.ne_nil)

theorem trimStart_append {part : Text} (h : Part part) (rest : Text) :
    (part ++ rest).dropWhile (· == slash) = part ++ rest := by
  cases hPart : part with
  | nil => exact absurd hPart h.ne_nil
  | cons c part' =>
    have hNe : c ≠ slash := by
      rintro rfl
      exact h.apart (hPart ▸ List.mem_cons_self)
    rw [List.cons_append, List.dropWhile_cons, if_neg (by simpa using hNe)]

/-- A text of components ends like its last one. -/
theorem trimEnd_joined {part : Text} {rest : List Text} (h : ∀ p ∈ part :: rest, Part p) :
    (part ++ joined slash rest).rdropWhile (· == slash) = part ++ joined slash rest := by
  rcases List.eq_nil_or_concat rest with rfl | ⟨front, last, rfl⟩
  · have hTrim := @trimEnd_append [] part (h part List.mem_cons_self)
    simpa using hTrim
  · have hTrim := @trimEnd_append (part ++ joined slash front ++ [slash]) last
      (h last (by simp))
    rw [List.concat_eq_append, joined_append]
    simpa using hTrim

theorem trim_joined {part : Text} {rest : List Text} (h : ∀ p ∈ part :: rest, Part p) :
    ((joined slash (part :: rest)).dropWhile (· == slash)).rdropWhile (· == slash) =
      part ++ joined slash rest := by
  rw [joined_cons, List.dropWhile_cons, if_pos (beq_self_eq_true slash),
    trimStart_append (h part List.mem_cons_self), trimEnd_joined h]

theorem stripRoot_render {ps : List Text} (h : ∀ part ∈ ps, Part part) :
    stripRoot (render ps) =
      match ps with
      | [] => []
      | part :: rest => part ++ joined slash rest := by
  cases ps with
  | nil => rfl
  | cons part rest => exact trim_joined h

/-- The inode map's normalisation. -/
theorem inodeNormalize_render {ps : List Text} (h : ∀ part ∈ ps, Part part) :
    Service.normalizePath (render ps) = render ps := by
  cases ps with
  | nil => rfl
  | cons part rest =>
    have hRoot : render (part :: rest) ≠ Service.rootText :=
      joined_ne_root (h part List.mem_cons_self) rest
    rw [Service.normalizePath, if_neg hRoot]
    exact congrArg (slash :: ·) (trim_joined h)

/-! ## UTF-8 -/

theorem utf8_parts {part : Text} {rest : List Text}
    (h : Utf8 (part ++ joined slash rest)) : ∀ p ∈ part :: rest, Utf8 p := by
  induction rest generalizing part with
  | nil =>
    rw [joined_nil, List.append_nil] at h
    exact fun p hMem => List.mem_singleton.mp hMem ▸ h
  | cons next rest ih =>
    obtain ⟨hPart, hRest⟩ := Utf8.split (by decide) h
    exact List.forall_mem_cons.mpr ⟨hPart, ih hRest⟩

theorem utf8_of_render {ps : List Text} (h : Utf8 (render ps)) : ∀ p ∈ ps, Utf8 p := by
  cases ps with
  | nil => exact fun _ hMem => by cases hMem
  | cons part rest =>
    have hSplit : Utf8 ([] ++ slash :: (part ++ joined slash rest)) := h
    exact utf8_parts (hSplit.split (by decide)).2

theorem utf8_front {front : List Text} {last : Text} (h : Utf8 (render (front ++ [last]))) :
    Utf8 (render front) := by
  rw [render_concat] at h
  cases front with
  | nil => exact (by decide : Utf8 rootPath)
  | cons part rest => exact (Utf8.split (by decide) h).1

/-! ## Normalising -/

theorem filterMap_parts {ps : List Text} (h : ∀ part ∈ ps, Part part) :
    ps.filterMap segmentComponent = ps.map .normal := by
  induction ps with
  | nil => rfl
  | cons part rest ih =>
    obtain ⟨hPart, hRest⟩ := List.forall_mem_cons.mp h
    rw [List.filterMap_cons, hPart.segmentComponent, List.map_cons, ih hRest]

theorem foldl_pushComponent {ps acc : List Text} (h : ∀ part ∈ ps, Utf8 part) :
    (ps.map Component.normal).foldl pushComponent acc = acc ++ ps := by
  induction ps generalizing acc with
  | nil => exact (List.append_nil acc).symm
  | cons part rest ih =>
    obtain ⟨hPart, hRest⟩ := List.forall_mem_cons.mp h
    have hText : toStringLossy part = part := hPart
    rw [List.map_cons, List.foldl_cons, pushComponent, hText, ih hRest, List.append_assoc]
    rfl

theorem pathComponents_render {ps : List Text} (h : ∀ part ∈ ps, Part part) :
    pathComponents (render ps) = .rootDir :: ps.map .normal := by
  cases ps with
  | nil => rfl
  | cons part rest =>
    have hSplit : (joined slash (part :: rest)).splitOn slash = [] :: part :: rest :=
      splitOn_joined fun s hs => (h s hs).apart
    rw [pathComponents, render, hSplit, List.filterMap_cons]
    exact congrArg (Component.rootDir :: ·) (filterMap_parts h)

theorem normalizePath_render {ps : List Text} (h : ∀ part ∈ ps, Part part)
    (hUtf8 : Utf8 (render ps)) : normalizePath (render ps) = .ok (render ps) := by
  have hSome : render ps ≠ [] := by
    cases ps <;> exact List.cons_ne_nil _ _
  have hRootDir : pushComponent [] .rootDir = [] := rfl
  rw [normalizePath, if_neg hSome, pathComponents_render h, List.foldl_cons, hRootDir,
    foldl_pushComponent (utf8_of_render hUtf8), List.nil_append]
  cases ps with
  | nil => rfl
  | cons part rest =>
    rw [if_neg (List.cons_ne_nil _ _), intercalate_cons]
    rfl

/-! ## Subtrees -/

theorem inSubtree_render_iff {part : Text} {rest qs : List Text}
    (h : ∀ p ∈ part :: rest, Part p) (hq : ∀ p ∈ qs, Part p) :
    pathIsInSubtree (render qs) (render (part :: rest)) = true ↔ part :: rest <+: qs := by
  rw [pathIsInSubtree_iff]
  cases qs with
  | nil =>
    constructor
    · rintro (hEq | ⟨tail, hEq⟩)
      · exact absurd hEq.symm (render_ne_root h)
      · have hLength := congrArg List.length hEq
        have hPart := List.length_pos_iff.mpr (h part List.mem_cons_self).ne_nil
        simp only [render, rootPath, joined_cons, List.length_append, List.length_cons,
          List.length_nil] at hLength
        omega
    · intro hPrefix
      exact absurd (List.prefix_nil.mp hPrefix) (List.cons_ne_nil _ _)
  | cons other others =>
    rw [← joined_prefix_iff (fun s hs => (h s hs).apart) fun s hs => (hq s hs).apart]
    constructor
    · rintro (hEq | ⟨tail, hEq⟩)
      · exact ⟨[], .inl rfl, by rw [List.append_nil]; exact hEq⟩
      · exact ⟨slash :: tail, .inr ⟨tail, rfl⟩, hEq⟩
    · rintro ⟨_, rfl | ⟨tail, rfl⟩, hEq⟩
      · exact .inl (by rw [List.append_nil] at hEq; exact hEq)
      · exact .inr ⟨tail, hEq⟩

/-- Below the root only the root is found. -/
theorem inSubtree_root_iff {path : Text} (hValid : validPath path = true) :
    pathIsInSubtree path rootPath = true ↔ path = rootPath := by
  rw [pathIsInSubtree_iff]
  refine ⟨?_, .inl⟩
  rintro (hEq | ⟨tail, rfl⟩)
  · exact hEq
  · -- two slashes in a row are not accepted
    have hParts := render_parts hValid
    have hFirst : parts (rootPath ++ slash :: tail) = [] :: tail.splitOn slash := by
      rw [parts, if_neg (by simp [rootPath])]
      have hSplit : (rootPath ++ slash :: tail).splitOn slash =
          [] :: [] :: tail.splitOn slash := by
        rw [rootPath, List.singleton_append, List.splitOn_cons_eq_if_modifyHead,
          if_pos (beq_self_eq_true slash), List.splitOn_cons_eq_if_modifyHead,
          if_pos (beq_self_eq_true slash)]
      rw [hSplit]
      rfl
    exact absurd rfl (hParts.1 [] (by rw [hFirst]; exact List.mem_cons_self)).ne_nil

theorem descendantSuffix_isSome_iff {path ancestor : Text} (hAncestor : ancestor ≠ rootPath) :
    (descendantSuffix path ancestor).isSome = true ↔ pathIsInSubtree path ancestor = true := by
  unfold descendantSuffix pathIsInSubtree
  by_cases hEq : path = ancestor
  · simp [hEq]
  · rw [if_neg hEq, if_neg hAncestor]
    cases hStrip : stripPrefix ancestor path with
    | none => simp [hEq]
    | some suffix =>
      by_cases hHead : suffix.head? = some slash <;> simp [hEq, hHead]

theorem render_head (ps : List Text) : (render ps).head? = some slash := by
  cases ps <;> rfl

theorem descendantSuffix_render_iff {ps qs : List Text} (h : ∀ p ∈ ps, Part p)
    (hq : ∀ p ∈ qs, Part p) :
    (descendantSuffix (render qs) (render ps)).isSome = true ↔ ps <+: qs := by
  cases ps with
  | nil =>
    refine ⟨fun _ => List.nil_prefix, fun _ => ?_⟩
    rw [render, descendantSuffix]
    split
    · rfl
    · rw [if_pos rfl, if_pos (render_head qs)]
      rfl
  | cons part rest =>
    rw [descendantSuffix_isSome_iff (render_ne_root h), inSubtree_render_iff h hq]

/-! ## The last component -/

/-- What follows the last slash. -/
def lastComponent (path : Text) : Text := (path.reverse.takeWhile (· != slash)).reverse

theorem reverse_span {last : Text} (hLast : slash ∉ last) (front : Text) :
    (front ++ slash :: last).reverse.takeWhile (· != slash) = last.reverse ∧
      (front ++ slash :: last).reverse.dropWhile (· != slash) = slash :: front.reverse := by
  have hAll : ∀ c ∈ last.reverse, (c != slash) = true := by
    intro c hc
    rw [bne_iff_ne]
    rintro rfl
    exact hLast (List.mem_reverse.mp hc)
  have hReverse : (front ++ slash :: last).reverse = last.reverse ++ slash :: front.reverse := by
    simp
  rw [hReverse, List.takeWhile_append_of_pos hAll, List.dropWhile_append_of_pos hAll]
  simp

theorem lastComponent_render {front : List Text} {last : Text} (hLast : Part last) :
    lastComponent (render (front ++ [last])) = last := by
  rw [lastComponent, render_concat, (reverse_span hLast.apart _).1, List.reverse_reverse]

theorem parentPath_render {front : List Text} {last : Text} (hLast : Part last) :
    Client.PathCache.parentPath (render (front ++ [last])) = render front := by
  rw [Client.PathCache.parentPath, render_concat, (reverse_span hLast.apart _).2]
  cases front with
  | nil => rfl
  | cons part rest =>
    rw [List.drop_succ_cons, List.drop_zero]
    split
    · rename_i hNil
      simp at hNil
    · rw [List.reverse_reverse]
      rfl

theorem joinChildPath_render {front : List Text} {last : Text} (h : ∀ p ∈ front, Part p) :
    Client.PathCache.joinChildPath (render front) last = render (front ++ [last]) := by
  rw [Client.PathCache.joinChildPath, render_concat]
  cases front with
  | nil => rfl
  | cons part rest =>
    rw [if_neg (render_ne_root h)]
    rfl

theorem pathParent_render {front : List Text} {last : Text} (h : ∀ p ∈ front, Part p)
    (hLast : Part last) : pathParent (render (front ++ [last])) = some (render front) := by
  have hAll : ∀ p ∈ front ++ [last], slash ∉ p := by
    intro p hMem
    rcases List.mem_append.mp hMem with hp | hp
    · exact (h p hp).apart
    · exact List.mem_singleton.mp hp ▸ hLast.apart
  have hBody : ((render (front ++ [last])).drop 1).splitOn slash = front ++ [last] := by
    cases hps : front ++ [last] with
    | nil => simp at hps
    | cons part rest =>
      rw [hps] at hAll
      exact splitOn_append_joined (hAll part List.mem_cons_self)
        fun s hs => hAll s (List.mem_cons_of_mem _ hs)
  have hFront : front.reverse.dropWhile (fun p : Text => p == [] || p == [46]) =
      front.reverse := by
    cases hRev : front.reverse with
    | nil => rfl
    | cons p ps =>
      have hp : Part p := h p (List.mem_reverse.mp (hRev ▸ List.mem_cons_self))
      rw [List.dropWhile_cons, if_neg (by rw [hp.not_skipped]; exact Bool.false_ne_true)]
  unfold pathParent
  rw [if_pos (render_head _)]
  change (match (((render (front ++ [last])).drop 1).splitOn slash).reverse.dropWhile _ with
    | [] => none
    | _ :: rest => some (rootPath ++ [slash].intercalate (rest.dropWhile _).reverse)) = _
  rw [hBody, List.reverse_append, List.reverse_singleton, List.singleton_append,
    List.dropWhile_cons, if_neg (by rw [hLast.not_skipped]; exact Bool.false_ne_true)]
  simp only [hFront, List.reverse_reverse]
  cases front with
  | nil => rfl
  | cons part rest =>
    rw [intercalate_cons]
    rfl

theorem parentRel_render {front : List Text} {last : Text} (h : ∀ p ∈ front, Part p)
    (hLast : Part last) (hUtf8 : Utf8 (render (front ++ [last]))) :
    parentRel (render (front ++ [last])) = render front := by
  have hText : toStringLossy (render front) = render front := utf8_front hUtf8
  have hSome : render front ≠ [] := by
    cases front <;> exact List.cons_ne_nil _ _
  rw [parentRel, pathParent_render h hLast]
  simp only [hText, if_neg hSome]

theorem appendRel_render {front : List Text} {last : Text} (h : ∀ p ∈ front, Part p) :
    appendRel (render front) last = render (front ++ [last]) := by
  rw [appendRel, render_concat]
  cases front with
  | nil => rfl
  | cons part rest =>
    rw [if_neg (render_ne_root h), render, joined_cons]
    have hTrim := trimEnd_joined h
    rw [List.rdropWhile_eq_self_iff] at hTrim
    have hSelf : (slash :: (part ++ joined slash rest)).rdropWhile (· == slash) =
        slash :: (part ++ joined slash rest) := by
      rw [List.rdropWhile_eq_self_iff]
      intro hNonempty
      have hTail : part ++ joined slash rest ≠ [] := by
        simp [(h part List.mem_cons_self).ne_nil]
      rw [List.getLast_cons hTail]
      exact hTrim hTail
    rw [hSelf]

/-! ## Host paths -/

/-- What follows a slash does not change what a path starts with. -/
theorem leadingComponent_append (base rel : Text) :
    leadingComponent (base ++ slash :: rel) = leadingComponent (base ++ [slash]) := by
  have hHead : (base ++ slash :: rel).head? = (base ++ [slash]).head? := by
    cases base <;> rfl
  have hFirst : ((base ++ slash :: rel).splitOn slash).head? =
      ((base ++ [slash]).splitOn slash).head? := by
    obtain ⟨first, rest, hSplit⟩ := List.exists_cons_of_ne_nil (List.splitOn_ne_nil slash base)
    rw [List.splitOn_append_cons_of_beq _ _ (beq_self_eq_true slash),
      List.splitOn_append_cons_of_beq _ _ (beq_self_eq_true slash), hSplit]
    rfl
  rw [leadingComponent, leadingComponent, hHead, hFirst]

theorem pathComponents_append (base rel : Text) :
    pathComponents (base ++ slash :: rel) =
      pathComponents (base ++ [slash]) ++ (rel.splitOn slash).filterMap segmentComponent := by
  have hNil : (List.splitOn slash ([] : Text)).filterMap segmentComponent = [] := rfl
  rw [pathComponents, pathComponents, leadingComponent_append,
    List.splitOn_append_cons_of_beq _ _ (beq_self_eq_true slash),
    List.splitOn_append_cons_of_beq _ _ (beq_self_eq_true slash), List.filterMap_append,
    List.filterMap_append, hNil, List.append_nil, List.append_assoc]

/-- A slash at the end is no component. -/
theorem pathComponents_slash {base : Text} (hBase : base ≠ []) :
    pathComponents (base ++ [slash]) = pathComponents base := by
  have hNil : (List.splitOn slash ([] : Text)).filterMap segmentComponent = [] := rfl
  have hLead : leadingComponent (base ++ [slash]) = leadingComponent base := by
    have hHead : (base ++ [slash]).head? = base.head? := by
      cases base with
      | nil => exact absurd rfl hBase
      | cons c base => rfl
    have hFirst : ((base ++ [slash]).splitOn slash).head? = (base.splitOn slash).head? := by
      obtain ⟨first, rest, hSplit⟩ := List.exists_cons_of_ne_nil (List.splitOn_ne_nil slash base)
      rw [List.splitOn_append_cons_of_beq _ _ (beq_self_eq_true slash), hSplit]
      rfl
    rw [leadingComponent, leadingComponent, hHead, hFirst]
  rw [pathComponents, pathComponents, hLead,
    List.splitOn_append_cons_of_beq _ _ (beq_self_eq_true slash), List.filterMap_append, hNil,
    List.append_nil]

/-- What is joined to a path comes after its components. -/
theorem pathComponents_join {base rel : Text} {named : List Component}
    (hHead : rel.head? ≠ some slash) (hLead : leadingComponent rel = [])
    (hRel : (rel.splitOn slash).filterMap segmentComponent = named) :
    pathComponents (joinPath base rel) = pathComponents base ++ named := by
  unfold joinPath
  rw [if_neg hHead]
  by_cases hNil : base = []
  · rw [if_pos (.inl hNil), hNil, List.nil_append, pathComponents, hLead, hRel]
    rfl
  by_cases hSlash : base.getLast? = some slash
  · obtain ⟨front, hFront⟩ := List.getLast?_eq_some_iff.mp hSlash
    rw [if_pos (.inr hSlash), hFront, List.append_assoc, List.singleton_append,
      pathComponents_append, hRel]
  · rw [if_neg (by simp [hNil, hSlash]), pathComponents_append, pathComponents_slash hNil, hRel]

theorem hostPath_render (root : Text) {ps : List Text} (h : ∀ part ∈ ps, Part part) :
    pathComponents (hostPath root (render ps)) = pathComponents root ++ ps.map .normal := by
  rw [hostPath, stripRoot_render h]
  cases ps with
  | nil => exact pathComponents_join (fun hHead => by cases hHead) rfl rfl
  | cons part rest =>
    have hPart := h part List.mem_cons_self
    have hSplit : (part ++ joined slash rest).splitOn slash = part :: rest :=
      splitOn_append_joined hPart.apart fun s hs => (h s (List.mem_cons_of_mem _ hs)).apart
    have hHead : (part ++ joined slash rest).head? ≠ some slash := by
      cases hEq : part with
      | nil => exact absurd hEq hPart.ne_nil
      | cons c part' =>
        intro hSlash
        rw [List.cons_append, List.head?_cons, Option.some.injEq] at hSlash
        exact hPart.apart (hEq ▸ hSlash ▸ List.mem_cons_self)
    refine pathComponents_join hHead ?_ (by rw [hSplit]; exact filterMap_parts h)
    have hDot : part ≠ [46] := by
      rintro rfl
      cases hPart.valid
    rw [leadingComponent, if_neg hHead, hSplit, if_neg (by simpa using hDot)]

/-! ## All accepted paths -/

theorem parts_injective {path path' : Text} (h : validPath path = true)
    (h' : validPath path' = true) (hParts : parts path = parts path') : path = path' := by
  rw [← (render_parts h).2, ← (render_parts h').2, hParts]

end FabricFs.Server
