import Mathlib.Data.Finset.Card
import CilRelink.Dictionary

/-!
# Entries and keys of dictionaries

What a dictionary finds after an entry is put in is the entry or what it found before. Putting in one entry after the
other leaves under each key what was put there last, and as many entries as there are different keys.
-/

namespace CilRelink

namespace Dictionary

variable {κ : Type u} {α : Type v} [DecidableEq κ] {dictionary : Dictionary κ α} {key other : κ} {value otherValue : α}

theorem find?_insert_self : (dictionary.insert key value).find? key = some value := by
  rw [find?_insert, if_pos rfl]

/-- What is put under a new key takes nothing away. -/
theorem find?_insert_of_find?_eq_none (fresh : dictionary.find? key = none)
    (known : dictionary.find? other = some otherValue) :
    (dictionary.insert key value).find? other = some otherValue := by
  have different : other ≠ key := by
    rintro rfl
    rw [fresh] at known
    cases known
  rw [find?_insert, if_neg different, known]

theorem mem_of_find?_eq_some (found : dictionary.find? key = some value) : (key, value) ∈ dictionary.entries := by
  rcases Option.map_eq_some_iff.mp found with ⟨⟨otherKey, _⟩, entry, rfl⟩
  have same : otherKey = key := by simpa using List.find?_some entry
  subst same
  exact List.mem_of_find?_eq_some entry

theorem eq_or_of_find?_insert (found : (dictionary.insert key value).find? other = some otherValue) :
    (other = key ∧ otherValue = value) ∨ dictionary.find? other = some otherValue := by
  rw [find?_insert] at found
  split at found
  · simp_all
  · exact .inr found

theorem eq_or_of_find?_insertNew (found : (dictionary.insertNew key value).find? other = some otherValue) :
    (other = key ∧ otherValue = value) ∨ dictionary.find? other = some otherValue := by
  rw [find?_insertNew] at found
  split at found
  · rename_i same
    subst same
    cases old : dictionary.find? other with
    | some first => simp_all
    | none => simp_all
  · exact .inr found

/-! ## One entry after the other -/

/-- Puts in entries, each in place of any other under its key. -/
def insertEach (dictionary : Dictionary κ α) (entries : List (κ × α)) : Dictionary κ α :=
  entries.foldl (fun filled entry => filled.insert entry.1 entry.2) dictionary

theorem insertEach_append (dictionary : Dictionary κ α) (front back : List (κ × α)) :
    dictionary.insertEach (front ++ back) = (dictionary.insertEach front).insertEach back := List.foldl_append

/-- The keys, each of which has one entry. -/
def keys (dictionary : Dictionary κ α) : List κ := dictionary.entries.map Prod.fst

theorem keys_insert (dictionary : Dictionary κ α) (key : κ) (value : α) :
    (dictionary.insert key value).keys = key :: dictionary.keys.filter (· ≠ key) := by
  simp only [keys, insert, erase, List.map_cons, List.filter_map]
  rfl

theorem nodup_keys_insert (distinct : dictionary.keys.Nodup) (key : κ) (value : α) :
    (dictionary.insert key value).keys.Nodup := by
  rw [keys_insert, List.nodup_cons]
  exact ⟨by simp, distinct.filter _⟩

theorem toFinset_keys_insert (dictionary : Dictionary κ α) (key : κ) (value : α) :
    (dictionary.insert key value).keys.toFinset = Insert.insert key dictionary.keys.toFinset := by
  ext other
  by_cases same : other = key <;> simp [keys_insert, same]

/-- The last of the entries under a key is found, or else what was there before. -/
theorem find?_insertEach (dictionary : Dictionary κ α) (entries : List (κ × α)) (key : κ) :
    (dictionary.insertEach entries).find? key =
      ((entries.reverse.find? (·.1 = key)).map Prod.snd).or (dictionary.find? key) := by
  induction entries generalizing dictionary with
  | nil => rfl
  | cons entry entries ih =>
      have next : dictionary.insertEach (entry :: entries) =
          (dictionary.insert entry.1 entry.2).insertEach entries := rfl
      rw [next, ih, List.reverse_cons, List.find?_append, find?_insert]
      by_cases same : entry.1 = key
      · cases entries.reverse.find? (·.1 = key) <;> simp [same]
      · cases entries.reverse.find? (·.1 = key) <;> simp [same, Ne.symm same]

theorem nodup_keys_insertEach (distinct : dictionary.keys.Nodup) (entries : List (κ × α)) :
    (dictionary.insertEach entries).keys.Nodup := by
  induction entries generalizing dictionary with
  | nil => exact distinct
  | cons entry entries ih => exact ih (nodup_keys_insert distinct entry.1 entry.2)

theorem toFinset_keys_insertEach (dictionary : Dictionary κ α) (entries : List (κ × α)) :
    (dictionary.insertEach entries).keys.toFinset = dictionary.keys.toFinset ∪ (entries.map Prod.fst).toFinset := by
  induction entries generalizing dictionary with
  | nil => simp [insertEach]
  | cons entry entries ih =>
      have next : dictionary.insertEach (entry :: entries) =
          (dictionary.insert entry.1 entry.2).insertEach entries := rfl
      rw [next, ih, toFinset_keys_insert]
      simp

/-- There are as many entries as different keys. -/
theorem size_insertEach_empty (entries : List (κ × α)) :
    (empty.insertEach entries).size = (entries.map Prod.fst).toFinset.card := by
  have none : (empty : Dictionary κ α).keys = [] := rfl
  have distinct : (empty.insertEach entries).keys.Nodup := by
    apply nodup_keys_insertEach
    rw [none]
    exact List.nodup_nil
  have sameKeys := toFinset_keys_insertEach empty entries
  rw [none, List.toFinset_nil, Finset.empty_union] at sameKeys
  rw [← sameKeys, List.toFinset_card_of_nodup distinct, keys, List.length_map, size]

/-! ## Values that have a key of their own -/

/-- The entries of values under their keys. A value without a key has none. -/
def entriesOf (keyOf : α → Option κ) (values : List α) : List (κ × α) :=
  values.filterMap fun value => (keyOf value).map (·, value)

theorem find?_entriesOf (keyOf : α → Option κ) (values : List α) (key : κ) :
    ((entriesOf keyOf values).find? (·.1 = key)).map Prod.snd = values.find? (keyOf · = some key) := by
  unfold entriesOf
  induction values with
  | nil => rfl
  | cons value values ih =>
      rw [List.filterMap_cons, List.find?_cons]
      cases keyed : keyOf value with
      | none => simpa using ih
      | some other =>
          by_cases same : other = key
          · simp [same]
          · simpa [same] using ih

/-- The last value under a key is found. -/
theorem find?_insertEach_entriesOf (keyOf : α → Option κ) (values : List α) (key : κ) :
    (empty.insertEach (entriesOf keyOf values)).find? key = values.reverse.find? (keyOf · = some key) := by
  rw [find?_insertEach, find?_empty, Option.or_none, ← find?_entriesOf, entriesOf, ← List.filterMap_reverse, entriesOf]

theorem size_insertEach_entriesOf (keyOf : α → Option κ) (values : List α) :
    (empty.insertEach (entriesOf keyOf values)).size = (values.filterMap keyOf).toFinset.card := by
  have key : ∀ value, ((keyOf value).map (·, value)).map Prod.fst = keyOf value := by
    intro value
    cases keyOf value <;> rfl
  simp only [size_insertEach_empty, entriesOf, List.map_filterMap, key]

end Dictionary

end CilRelink
