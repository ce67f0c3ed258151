import FabricFs.Lib.Dict

/-!
# Names, paths and error numbers

Names of directory entries are byte strings, as the host has them. The server's own
paths are strings, so an entry is addressed through `to_string_lossy`: a name that is
not UTF-8 comes out as another name.
-/

namespace FabricFs

/-- Raw bytes, such as file contents. -/
abbrev Bytes : Type := List UInt8

/-- The name of a directory entry. -/
abbrev Name : Type := Bytes

/-- The byte `/`. -/
def slash : UInt8 := 47

/-- `u64::MAX`. -/
def u64Max : Nat := 2 ^ 64 - 1

/-- The components of a path below some root. A path that the protocol accepts is absolute
and has no empty, `.` or `..` component, so it is its list of components and
`normalize_path` does not change it. -/
abbrev Path : Type := List Name

/-- The bytes of a literal name. -/
def nameOf (text : String) : Name := text.toUTF8.toList

/-- The error numbers that the code names, and the others. -/
inductive Errno where
  | eperm | enoent | eio | ebadf | eagain | eacces | ebusy | eexist | exdev | enotdir | eisdir
  | einval | erofs | erange | enotempty | eloop | enodata | eopnotsupp
  | other (code : Nat)
  deriving DecidableEq, Repr

/-! ## `to_string_lossy` -/

/-- The ranges of the continuation bytes after a first byte of a UTF-8 sequence. -/
def continuations (first : UInt8) : Option (List (UInt8 × UInt8)) :=
  let rest : UInt8 × UInt8 := (0x80, 0xbf)
  if first < 0x80 then some []
  else if 0xc2 ≤ first ∧ first ≤ 0xdf then some [rest]
  else if first = 0xe0 then some [(0xa0, 0xbf), rest]
  else if first = 0xed then some [(0x80, 0x9f), rest]
  else if 0xe1 ≤ first ∧ first ≤ 0xef then some [rest, rest]
  else if first = 0xf0 then some [(0x90, 0xbf), rest, rest]
  else if 0xf1 ≤ first ∧ first ≤ 0xf3 then some [rest, rest, rest]
  else if first = 0xf4 then some [(0x80, 0x8f), rest, rest]
  else none

/-- How many of the ranges the bytes match, from the left. -/
def matched : List (UInt8 × UInt8) → Bytes → Nat
  | range :: ranges, b :: bytes =>
    if range.1 ≤ b ∧ b ≤ range.2 then matched ranges bytes + 1 else 0
  | _, _ => 0

/-- The replacement character U+FFFD. -/
def replacement : Bytes := [0xef, 0xbf, 0xbd]

def toStringLossyAux : Nat → Bytes → Bytes
  | 0, _ => []
  | _ + 1, [] => []
  | fuel + 1, first :: bytes =>
    match continuations first with
    | none => replacement ++ toStringLossyAux fuel bytes
    | some ranges =>
      let n := matched ranges bytes
      if n = ranges.length then first :: bytes.take n ++ toStringLossyAux fuel (bytes.drop n)
      else replacement ++ toStringLossyAux fuel (bytes.drop n)

/-- `OsStr::to_string_lossy`: every maximal ill-formed part becomes one U+FFFD. -/
def toStringLossy (name : Name) : Name := toStringLossyAux name.length name

/-- The name is UTF-8. -/
def Utf8 (name : Name) : Prop := toStringLossy name = name

instance (name : Name) : Decidable (Utf8 name) := inferInstanceAs (Decidable (_ = _))

example : toStringLossy [0x61, 0xff, 0xc3, 0xa9, 0xe2, 0x82] =
    [0x61, 0xef, 0xbf, 0xbd, 0xc3, 0xa9, 0xef, 0xbf, 0xbd] := by decide +kernel

/-! ## Parents -/

/-- The parent of a path and its last component. -/
def splitLast : Path → Option (Path × Name)
  | [] => none
  | n :: p => some ((n :: p).dropLast, (n :: p).getLast (List.cons_ne_nil n p))

theorem splitLast_eq_some {p d : Path} {n : Name} : splitLast p = some (d, n) ↔ p = d ++ [n] := by
  constructor
  · intro h
    cases p with
    | nil => cases h
    | cons m p =>
      rw [splitLast, Option.some.injEq, Prod.mk.injEq] at h
      rw [← h.1, ← h.2, List.dropLast_append_getLast]
  · rintro rfl
    cases hd : d ++ [n] with
    | nil => exact absurd hd (by simp)
    | cons m p =>
      rw [splitLast, Option.some.injEq, Prod.mk.injEq]
      simp only [← hd]
      exact ⟨List.dropLast_concat, List.getLast_append_singleton d⟩

theorem splitLast_eq_none {p : Path} : splitLast p = none ↔ p = [] := by
  cases p <;> simp [splitLast]

end FabricFs
