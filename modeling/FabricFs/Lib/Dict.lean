import Mathlib.Algebra.Group.Int.Defs
import Mathlib.Algebra.GroupWithZero.Nat
import Mathlib.Data.List.AList

/-!
# Finite dictionaries

A dictionary is an association list without repeated keys (`AList` at a constant
family). This module adds the operations on dictionaries that hash-map code uses and
`AList` lacks: keeping the entries that satisfy a predicate, changing all values, and
asking whether some value satisfies a predicate. Prefixes of lists that serve as keys are
split off by `stripPrefix`.
-/

namespace Lib

/-- A finite map from keys to values. -/
abbrev Dict (κ ν : Type) : Type := AList (fun _ : κ => ν)

namespace Dict

variable {κ ν : Type}

/-- Keep the entries whose key satisfies the predicate. -/
def retain (f : κ → Bool) (m : Dict κ ν) : Dict κ ν :=
  ⟨m.entries.filter (fun e => f e.1), m.nodupKeys.sublist List.filter_sublist⟩

/-- Keep the entries whose value satisfies the predicate. -/
def retainValues (f : ν → Bool) (m : Dict κ ν) : Dict κ ν :=
  ⟨m.entries.filter (fun e => f e.2), m.nodupKeys.sublist List.filter_sublist⟩

/-- Change every value. -/
def mapValues (f : ν → ν) (m : Dict κ ν) : Dict κ ν :=
  ⟨m.entries.map (fun e => ⟨e.1, f e.2⟩), by
    have hKeys : (m.entries.map (fun e => (⟨e.1, f e.2⟩ : Σ _ : κ, ν))).map Sigma.fst =
        m.entries.map Sigma.fst := by
      rw [List.map_map]
      rfl
    unfold List.NodupKeys List.keys
    rw [hKeys]
    exact m.nodupKeys⟩

/-- Some value of the dictionary satisfies the predicate. -/
def anyValue (f : ν → Bool) (m : Dict κ ν) : Bool := m.entries.any (fun e => f e.2)

variable [DecidableEq κ]

theorem mem_entries_iff {m : Dict κ ν} {k : κ} {v : ν} :
    (⟨k, v⟩ : Σ _ : κ, ν) ∈ m.entries ↔ m.lookup k = some v :=
  (AList.mem_lookup_iff (s := m)).symm

theorem lookup_retain (f : κ → Bool) (m : Dict κ ν) (k : κ) :
    (m.retain f).lookup k = if f k then m.lookup k else none := by
  apply Option.ext
  intro v
  rw [← mem_entries_iff]
  simp only [retain, List.mem_filter, mem_entries_iff]
  split
  · rename_i hk
    simp [hk]
  · rename_i hk
    simp [hk]

theorem lookup_retainValues (f : ν → Bool) (m : Dict κ ν) (k : κ) :
    (m.retainValues f).lookup k = (m.lookup k).filter f := by
  apply Option.ext
  intro v
  rw [← mem_entries_iff]
  simp only [retainValues, List.mem_filter, mem_entries_iff, Option.filter_eq_some_iff]

theorem lookup_mapValues (f : ν → ν) (m : Dict κ ν) (k : κ) :
    (m.mapValues f).lookup k = (m.lookup k).map f := by
  apply Option.ext
  intro v
  rw [← mem_entries_iff, Option.map_eq_some_iff]
  simp only [mapValues, List.mem_map]
  constructor
  · rintro ⟨⟨k', v'⟩, hm, he⟩
    cases he
    exact ⟨v', mem_entries_iff.mp hm, rfl⟩
  · rintro ⟨v', hm, rfl⟩
    exact ⟨⟨k, v'⟩, mem_entries_iff.mpr hm, rfl⟩

theorem anyValue_iff {f : ν → Bool} {m : Dict κ ν} :
    m.anyValue f = true ↔ ∃ k v, m.lookup k = some v ∧ f v = true := by
  simp only [anyValue, List.any_eq_true]
  constructor
  · rintro ⟨⟨k, v⟩, hm, hf⟩
    exact ⟨k, v, mem_entries_iff.mp hm, hf⟩
  · rintro ⟨k, v, hm, hf⟩
    exact ⟨⟨k, v⟩, mem_entries_iff.mpr hm, hf⟩

theorem lookup_insert_eq (m : Dict κ ν) (k k' : κ) (v : ν) :
    (m.insert k' v).lookup k = if k = k' then some v else m.lookup k := by
  split
  · rename_i h
    subst h
    exact AList.lookup_insert m
  · rename_i h
    exact AList.lookup_insert_ne h

theorem lookup_erase_eq (m : Dict κ ν) (k k' : κ) :
    (m.erase k').lookup k = if k = k' then none else m.lookup k := by
  split
  · rename_i h
    subst h
    exact AList.lookup_erase k m
  · rename_i h
    exact AList.lookup_erase_ne h

end Dict

/-! ## Prefixes -/

/-- What follows the given prefix, when the list starts with it. -/
def stripPrefix {α : Type} [DecidableEq α] (pre l : List α) : Option (List α) :=
  if pre <+: l then some (l.drop pre.length) else none

theorem stripPrefix_eq_some {α : Type} [DecidableEq α] {pre l rest : List α} :
    stripPrefix pre l = some rest ↔ l = pre ++ rest := by
  unfold stripPrefix
  constructor
  · intro h
    split at h
    · rename_i hp
      obtain ⟨t, rfl⟩ := hp
      simp at h
      rw [h]
    · cases h
  · rintro rfl
    rw [if_pos ⟨rest, rfl⟩]
    simp

end Lib
