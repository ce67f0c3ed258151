import Mathlib.Data.List.Basic
import FabricFs.Host.Names

/-!
# Path strings of the protocol

`fs-protocol/src/path.rs`: which path strings a message may carry, and when one path lies
in the subtree of another. Strings are their bytes.

* `pathIsInSubtree_iff`: a path of the subtree is its root, or the root followed by a
  slash and more.
-/

namespace FabricFs.Protocol

open Lib

variable {ε α : Type} {x : Except ε α} {a : α} {path : Text}

/-- The bytes of a string. -/
abbrev Text : Type := List UInt8

/-- The path string `/`. -/
def rootPath : Text := [slash]

inductive Operation where
  | lookup | getattr | readdir | openObject | read | write | create | rename | unlink | mkdir
  | rmdir | statfs | getxattr | setxattr | listxattr | removexattr | release | readlink | symlink
  | hardlink | setattr | flush | fsync | fsyncdir | getlk | setlk | flock | copyFileRange
  | fallocate | lseek
  deriving DecidableEq, Repr

inductive ProtocolError where
  | unsupportedVersion (version : Nat)
  | unknownInvalidationKind (kind : Int)
  | unknownFileKind (kind : Int)
  | unknownOpenKind (kind : Int)
  | payloadMismatch (envelope payload : Operation)
  | invalidPath (path : Text)
  | invalidEnvelope (message : String)
  | invalidResponseState (message : String)
  deriving DecidableEq, Repr

/-- Fail with the error unless the condition holds. -/
def require {ε : Type} (c : Bool) (e : ε) : Except ε Unit := if c then .ok () else .error e

@[simp] theorem require_eq_ok {c : Bool} {e : ε} : require c e = .ok () ↔ c = true := by
  cases c <;> simp [require]

theorem bind_eq_ok {β : Type} {f : α → Except ε β} {b : β} :
    (x >>= f) = .ok b ↔ ∃ a, x = .ok a ∧ f a = .ok b := by
  cases x <;> simp [bind, Except.bind]

theorem bind_eq_error {β : Type} {f : α → Except ε β} {e : ε} :
    (x >>= f) = .error e ↔ x = .error e ∨ ∃ a, x = .ok a ∧ f a = .error e := by
  cases x <;> simp [bind, Except.bind]

@[simp] theorem check_bind_eq_ok {x : Except ε Unit} {f : Unit → Except ε α} :
    (x >>= f) = .ok a ↔ x = .ok () ∧ f () = .ok a :=
  bind_eq_ok.trans ⟨fun ⟨_, h⟩ => h, fun h => ⟨(), h⟩⟩

theorem mapError_eq_ok {ε' : Type} {f : ε → ε'} : x.mapError f = .ok a ↔ x = .ok a := by
  cases x <;> simp [Except.mapError]

/-! ## Which paths a message may carry -/

/-- A component between two slashes. -/
def validComponent (component : Text) : Bool :=
  !component.isEmpty && component != [46] && component != [46, 46]

/-- The test of `validate_path_value`. -/
def validPath (value : Text) : Bool :=
  value.head? == some slash && !value.contains 0 &&
    (value == rootPath || ((value.splitOn slash).drop 1).all validComponent)

def validatePathValue (value : Text) : Except ProtocolError Unit :=
  require (validPath value) (.invalidPath value)

def validateNonRootPathValue (value : Text) : Except ProtocolError Unit := do
  validatePathValue value
  require (value != rootPath) (.invalidEnvelope "operation path must not be root")

/-- `required_path_value`. -/
def requiredPathValue : Option Text → Except ProtocolError Text
  | some path => .ok path
  | none => .error (.invalidEnvelope "missing path DTO")

def validatePathField (value : Option Text) : Except ProtocolError Unit := do
  validatePathValue (← requiredPathValue value)

def validateNonRootPathField (value : Option Text) : Except ProtocolError Unit := do
  validateNonRootPathValue (← requiredPathValue value)

def validateRequiredInvalidationPath (field : String) (value : Text) :
    Except ProtocolError Unit := do
  require (!value.isEmpty) (.invalidEnvelope (field ++ " is required for invalidation kind"))
  validatePathValue value

def validateRequiredNonRootInvalidationPath (field : String) (value : Text) :
    Except ProtocolError Unit := do
  validateRequiredInvalidationPath field value
  require (value != rootPath)
    (.invalidEnvelope (field ++ " must not be root for invalidation kind"))

/-! ## Subtrees -/

def pathIsInSubtree (path root : Text) : Bool :=
  path == root ||
    match stripPrefix root path with
    | some suffix => suffix.head? == some slash
    | none => false

theorem pathIsInSubtree_iff {root : Text} :
    pathIsInSubtree path root = true ↔ path = root ∨ ∃ rest, path = root ++ slash :: rest := by
  unfold pathIsInSubtree
  rw [Bool.or_eq_true, beq_iff_eq]
  refine or_congr Iff.rfl ⟨fun h => ?_, ?_⟩
  · split at h
    · rename_i suffix hs
      rw [stripPrefix_eq_some] at hs
      cases suffix with
      | nil => simp at h
      | cons c rest =>
        obtain rfl : c = slash := by simpa using h
        exact ⟨rest, hs⟩
    · cases h
  · rintro ⟨rest, rfl⟩
    rw [stripPrefix_eq_some.mpr rfl]
    simp

def validateRenamePaths (oldPath newPath : Text) : Except ProtocolError Unit := do
  validateNonRootPathValue oldPath
  validateNonRootPathValue newPath
  require (!(pathIsInSubtree oldPath newPath || pathIsInSubtree newPath oldPath))
    (.invalidEnvelope "rename paths must be in disjoint subtrees")

theorem validateNonRootPathValue_eq_ok {value : Text} :
    validateNonRootPathValue value = .ok () ↔ validPath value = true ∧ value ≠ rootPath := by
  simp [validateNonRootPathValue, validatePathValue]

theorem validateRenamePaths_eq_ok {oldPath newPath : Text} :
    validateRenamePaths oldPath newPath = .ok () ↔ (validPath oldPath = true ∧ oldPath ≠ rootPath) ∧
      (validPath newPath = true ∧ newPath ≠ rootPath) ∧
      pathIsInSubtree oldPath newPath = false ∧ pathIsInSubtree newPath oldPath = false := by
  simp [validateRenamePaths, validateNonRootPathValue_eq_ok]

theorem validPath_ne_nil {value : Text} (h : validPath value = true) : value ≠ [] := by
  rintro rfl
  simp [validPath] at h

theorem requiredPathValue_bind_eq_ok {path : Option Text} {f : Text → Except ProtocolError α} :
    (requiredPathValue path >>= f) = .ok a ↔ ∃ p, path = some p ∧ f p = .ok a := by
  cases path <;> simp [requiredPathValue, bind, Except.bind]

theorem validatePathField_eq_ok {path : Option Text} :
    validatePathField path = .ok () ↔ ∃ p, path = some p ∧ validPath p = true := by
  simp [validatePathField, requiredPathValue_bind_eq_ok, validatePathValue]

theorem validateNonRootPathField_eq_ok {path : Option Text} :
    validateNonRootPathField path = .ok () ↔
      ∃ p, path = some p ∧ validPath p = true ∧ p ≠ rootPath := by
  simp [validateNonRootPathField, requiredPathValue_bind_eq_ok, validateNonRootPathValue_eq_ok]

theorem validateRequiredInvalidationPath_ok (field : String) (hPath : validPath path = true) :
    validateRequiredInvalidationPath field path = .ok () := by
  have hNe : path.isEmpty = false := by simpa using validPath_ne_nil hPath
  simp [validateRequiredInvalidationPath, validatePathValue, hNe, hPath]

theorem validateRequiredNonRootInvalidationPath_ok (field : String) (hPath : validPath path = true)
    (hRoot : path ≠ rootPath) :
    validateRequiredNonRootInvalidationPath field path = .ok () := by
  simp [validateRequiredNonRootInvalidationPath, validateRequiredInvalidationPath_ok field hPath,
    hRoot]

end FabricFs.Protocol
