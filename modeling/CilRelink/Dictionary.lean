/-!
# Dictionaries

Finite maps as lists of pairs in which each key stands once. What a dictionary holds is told by `find?`.
-/
namespace CilRelink

/-- A finite map. -/
structure Dictionary (κ : Type u) (α : Type v) where
  entries : List (κ × α)
deriving DecidableEq

namespace Dictionary

variable {κ : Type u} {α : Type v} [DecidableEq κ]

/-- The map without entries. -/
def empty : Dictionary κ α := ⟨[]⟩

/-- The value under `key`. -/
def find? (dictionary : Dictionary κ α) (key : κ) : Option α :=
  (dictionary.entries.find? (·.1 = key)).map Prod.snd

/-- Whether there is a value under `key`. -/
def contains (dictionary : Dictionary κ α) (key : κ) : Bool := (dictionary.find? key).isSome

/-- Takes away what is under `key`. -/
def erase (dictionary : Dictionary κ α) (key : κ) : Dictionary κ α :=
  ⟨dictionary.entries.filter (·.1 ≠ key)⟩

/-- Puts `value` under `key` in place of any other. -/
def insert (dictionary : Dictionary κ α) (key : κ) (value : α) : Dictionary κ α :=
  ⟨(key, value) :: (dictionary.erase key).entries⟩

/-- Puts `value` under `key` unless there is a value already. -/
def insertNew (dictionary : Dictionary κ α) (key : κ) (value : α) : Dictionary κ α :=
  if dictionary.contains key then dictionary else ⟨(key, value) :: dictionary.entries⟩

/-- The number of keys. -/
def size (dictionary : Dictionary κ α) : Nat := dictionary.entries.length

@[simp]
theorem find?_empty (key : κ) : (empty : Dictionary κ α).find? key = none := rfl

theorem find?_erase (dictionary : Dictionary κ α) (key other : κ) :
    (dictionary.erase key).find? other = if other = key then none else dictionary.find? other := by
  by_cases same : other = key
  · subst same
    simp [find?, erase, List.find?_filter]
  · simp only [find?, erase, same, if_false, List.find?_filter]
    congr 2
    funext entry
    by_cases hit : entry.1 = other
    · simp [hit, same]
    · simp [hit]

theorem find?_insert (dictionary : Dictionary κ α) (key other : κ) (value : α) :
    (dictionary.insert key value).find? other = if other = key then some value else dictionary.find? other := by
  by_cases same : other = key
  · subst same
    simp [find?, insert]
  · have missing : (key = other) = False := by simpa [eq_comm] using same
    have erased := dictionary.find?_erase key other
    rw [if_neg same] at erased ⊢
    rw [← erased]
    simp [find?, insert, missing]

theorem find?_insertNew (dictionary : Dictionary κ α) (key other : κ) (value : α) :
    (dictionary.insertNew key value).find? other =
      if other = key then some ((dictionary.find? key).getD value) else dictionary.find? other := by
  unfold insertNew contains
  cases found : dictionary.find? key with
  | some old =>
    by_cases same : other = key
    · simp [same, found]
    · simp [same]
  | none =>
    by_cases same : other = key
    · subst same
      simp [find?]
    · have missing : (key = other) = False := by simpa [eq_comm] using same
      simp [find?, same, missing]

end Dictionary

end CilRelink
