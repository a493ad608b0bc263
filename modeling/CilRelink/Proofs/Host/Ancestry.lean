import Mathlib.Combinatorics.Pigeonhole
import CilRelink.Proofs.Dictionary
import CilRelink.Rule.Breakage

/-!
# The way up from a type

From a type one gets to its base, if the base is a type of the host that is in the table, and so on upwards. If no type
is met again on its own way up, the way has no more types than the table, so a search that gives up after as many steps
misses none of them. It also learns why the way ends: the last type has no base, or one that is not the host's, or else
one that the table does not have.

Members are looked for on this way. The way on which they are taken out afterwards does not ask whether a base is the
host's, so it may go further, but up to a member that was found it is the same.
-/

namespace CilRelink

/-- A type and its bases, as far as the table of live types tells. -/
structure Ancestry where
  /-- The type and its bases. -/
  known : List HostDefinition
  /-- Whether the last of them has a base in the host that is not in the table. -/
  continues : Bool

/-- What becomes of looking for a member in an ancestry. -/
def Ancestry.lookup (ancestry : Ancestry) (declares : HostDefinition → Bool) : Lookup :=
  if ancestry.known.any declares then .found else if ancestry.continues then .unknown else .missing

namespace HostTable

/-- The bases of a type up to the first that is not the host's or not in the table, but at most `limit` of them. -/
def ancestryWithin (table : HostTable) : (limit : Nat) → HostDefinition → Ancestry
  | 0, definition => ⟨[definition], false⟩
  | limit + 1, definition =>
    match definition.base with
    | none => ⟨[definition], false⟩
    | some base =>
      if !table.owns base.reference then ⟨[definition], false⟩
      else
        match table.find? base.reference with
        | none => ⟨[definition], true⟩
        | some next =>
          let rest := table.ancestryWithin limit next
          ⟨definition :: rest.known, rest.continues⟩

/-- The bases of a type. -/
def ancestry (table : HostTable) (definition : HostDefinition) : Ancestry :=
  table.ancestryWithin table.size definition

/-- The definition of a type's base, if the base is a type of the host that is in the table. -/
def parent? (table : HostTable) (definition : HostDefinition) : Option HostDefinition :=
  definition.base.bind fun base => if table.owns base.reference then table.find? base.reference else none

/-- What is reached from a type in `count` steps up. -/
def ancestor? (table : HostTable) (definition : HostDefinition) : (count : Nat) → Option HostDefinition
  | 0 => some definition
  | count + 1 => (table.ancestor? definition count).bind table.parent?

/-- Whether no type is met again on its own way up. -/
def Acyclic (table : HostTable) : Prop :=
  ∀ definition count, table.ancestor? definition (count + 1) ≠ some definition

/-- Whether the base of a type is a type of the host that the table does not have. -/
def lacksBase (table : HostTable) (definition : HostDefinition) : Bool :=
  definition.base.any fun base => table.owns base.reference && (table.find? base.reference).isNone

/-- The definitions in the table. -/
def known (table : HostTable) : List HostDefinition := table.definitions.entries.map Prod.snd

variable {table : HostTable} {definition base ancestor : HostDefinition} {count : Nat}

theorem mem_known_of_find? {reference : TypeRef} (found : table.find? reference = some definition) :
    definition ∈ table.known := by
  rcases Option.bind_eq_some_iff.mp found with ⟨name, _, held⟩
  exact List.mem_map.mpr ⟨_, Dictionary.mem_of_find?_eq_some held, rfl⟩

theorem mem_known_of_parent? (parent : table.parent? definition = some base) : base ∈ table.known := by
  rcases Option.bind_eq_some_iff.mp parent with ⟨type, _, found⟩
  split at found
  · exact mem_known_of_find? found
  · cases found

/-! ## Going up -/

theorem ancestor?_add (table : HostTable) (definition : HostDefinition) (first second : Nat) :
    table.ancestor? definition (first + second) =
      (table.ancestor? definition first).bind (table.ancestor? · second) := by
  induction second with
  | zero => simp only [Nat.add_zero, ancestor?, Option.bind_fun_some]
  | succ second ih =>
      rw [Nat.add_succ, ancestor?, ih, Option.bind_assoc]
      rfl

theorem ancestor?_succ (table : HostTable) (definition : HostDefinition) (count : Nat) :
    table.ancestor? definition (count + 1) = (table.parent? definition).bind (table.ancestor? · count) := by
  rw [Nat.add_comm, ancestor?_add]
  rfl

theorem ancestor?_eq_none_of_le {more : Nat} (ended : table.ancestor? definition count = none) (later : count ≤ more) :
    table.ancestor? definition more = none := by
  rcases Nat.exists_eq_add_of_le later with ⟨rest, rfl⟩
  rw [ancestor?_add, ended, Option.bind_none]

theorem mem_known_of_ancestor? (held : definition ∈ table.known)
    (reached : table.ancestor? definition count = some ancestor) : ancestor ∈ table.known := by
  cases count with
  | zero =>
      cases reached
      exact held
  | succ count =>
      rcases Option.bind_eq_some_iff.mp reached with ⟨_, _, parent⟩
      exact mem_known_of_parent? parent

/-- What holds somewhere on the way up holds at its start or somewhere on the way up from the base. -/
theorem exists_ancestor?_iff {Holds : HostDefinition → Prop} :
    (∃ count ancestor, table.ancestor? definition count = some ancestor ∧ Holds ancestor) ↔
      Holds definition ∨ ∃ base, table.parent? definition = some base ∧
        ∃ count ancestor, table.ancestor? base count = some ancestor ∧ Holds ancestor := by
  constructor
  · rintro ⟨_ | count, ancestor, reached, holds⟩
    · cases reached
      exact .inl holds
    · rw [ancestor?_succ, Option.bind_eq_some_iff] at reached
      rcases reached with ⟨base, parent, reached⟩
      exact .inr ⟨base, parent, count, ancestor, reached, holds⟩
  · rintro (holds | ⟨base, parent, count, ancestor, reached, holds⟩)
    · exact ⟨0, definition, rfl, holds⟩
    · exact ⟨count + 1, ancestor, by rw [ancestor?_succ, parent, Option.bind_some, reached], holds⟩

/-! ## No way up is longer than the table -/

/-- A type is met at one place of a way up only. -/
theorem Acyclic.ne_of_lt (acyclic : table.Acyclic) {first second : Nat} (before : first < second)
    (met : table.ancestor? definition first = some ancestor) :
    table.ancestor? definition second ≠ some ancestor := by
  intro again
  rcases Nat.exists_eq_add_of_lt before with ⟨between, rfl⟩
  rw [Nat.add_assoc, ancestor?_add, met, Option.bind_some] at again
  exact acyclic ancestor between again

theorem Acyclic.ancestor?_size (acyclic : table.Acyclic) (held : definition ∈ table.known) :
    table.ancestor? definition table.size = none := by
  by_contra goesOn
  have met (count : Nat) (inside : count ≤ table.size) : ∃ ancestor, table.ancestor? definition count = some ancestor :=
    Option.ne_none_iff_exists'.mp fun ended => goesOn (ancestor?_eq_none_of_le ended inside)
  -- there are more places up to there than types in the table, so that one stands at two of them
  have fewer : table.known.toFinset.card < (Finset.range (table.size + 1)).card := by
    have atMost := List.toFinset_card_le table.known
    rw [known, List.length_map] at atMost
    rw [Finset.card_range]
    exact Nat.lt_succ_of_le atMost
  have known : Set.MapsTo (fun count => (table.ancestor? definition count).getD definition)
      (Finset.range (table.size + 1)) table.known.toFinset := by
    intro count inside
    rw [Finset.mem_coe, Finset.mem_range] at inside
    rcases met count (by omega) with ⟨ancestor, reached⟩
    simp only [reached, Option.getD_some, Finset.mem_coe, List.mem_toFinset]
    exact mem_known_of_ancestor? held reached
  rcases Finset.exists_ne_map_eq_of_card_lt_of_maps_to fewer known with
    ⟨first, firstInside, second, secondInside, differ, same⟩
  rw [Finset.mem_range] at firstInside secondInside
  rcases met first (by omega) with ⟨ancestor, reached⟩
  rcases met second (by omega) with ⟨other, otherReached⟩
  simp only [reached, otherReached, Option.getD_some] at same
  subst same
  rcases Nat.lt_or_gt_of_ne differ with before | after
  · exact acyclic.ne_of_lt before reached otherReached
  · exact acyclic.ne_of_lt after otherReached reached

/-- It can be computed whether no type is met again on its own way up: then all ways end soon. -/
theorem acyclic_iff : table.Acyclic ↔ ∀ definition ∈ table.known, table.ancestor? definition table.size = none := by
  constructor
  · exact fun acyclic definition held => acyclic.ancestor?_size held
  · intro ends definition count again
    have held : definition ∈ table.known := by
      rcases Option.bind_eq_some_iff.mp again with ⟨_, _, parent⟩
      exact mem_known_of_parent? parent
    -- who is met again is met again and again
    have recurs (times : Nat) : table.ancestor? definition (times * (count + 1)) = some definition := by
      induction times with
      | zero => rw [Nat.zero_mul, ancestor?]
      | succ times ih => rw [Nat.succ_mul, ancestor?_add, ih, Option.bind_some, again]
    have ended := ancestor?_eq_none_of_le (ends definition held) (Nat.le_mul_of_pos_right table.size count.succ_pos)
    rw [recurs] at ended
    cases ended

instance : Decidable table.Acyclic := decidable_of_iff _ acyclic_iff.symm

/-! ## The search through the bases -/

theorem parent?_eq_none_iff : table.parent? definition = none ↔
    table.lacksBase definition = true ∨ ∀ base ∈ definition.base, table.owns base.reference = false := by
  unfold parent? lacksBase
  cases definition.base with
  | none => simp
  | some base =>
      cases owned : table.owns base.reference <;> simp [owned]

theorem ancestryWithin_of_parent? {limit : Nat} (parent : table.parent? definition = some base) :
    table.ancestryWithin (limit + 1) definition =
      ⟨definition :: (table.ancestryWithin limit base).known, (table.ancestryWithin limit base).continues⟩ := by
  rcases Option.bind_eq_some_iff.mp parent with ⟨type, based, found⟩
  split at found
  · rename_i owned
    simp only [ancestryWithin, based, owned, found, Bool.not_true, Bool.false_eq_true, if_false]
  · cases found

theorem ancestryWithin_of_end {limit : Nat} (ended : table.parent? definition = none) :
    table.ancestryWithin (limit + 1) definition = ⟨[definition], table.lacksBase definition⟩ := by
  unfold parent? at ended
  unfold lacksBase
  cases based : definition.base with
  | none => simp only [ancestryWithin, based, Option.any_none]
  | some type =>
      cases owned : table.owns type.reference with
      | false => simp [ancestryWithin, based, owned]
      | true =>
          have unknown : table.find? type.reference = none := by simpa [based, owned] using ended
          simp [ancestryWithin, based, owned, unknown]

theorem exists_known_ancestryWithin (table : HostTable) (limit : Nat) (definition : HostDefinition) :
    ∃ bases, (table.ancestryWithin limit definition).known = definition :: bases := by
  cases limit with
  | zero => exact ⟨[], rfl⟩
  | succ limit =>
      cases parent : table.parent? definition with
      | none => exact ⟨[], by rw [ancestryWithin_of_end parent]⟩
      | some base => exact ⟨_, by rw [ancestryWithin_of_parent? parent]⟩

/-- A search that goes to the end of a way finds the types on it, in order. -/
theorem getElem?_ancestryWithin {limit : Nat} (ended : table.ancestor? definition limit = none) (count : Nat) :
    (table.ancestryWithin limit definition).known[count]? = table.ancestor? definition count := by
  induction limit generalizing definition count with
  | zero => cases ended
  | succ limit ih =>
      rw [ancestor?_succ] at ended
      cases parent : table.parent? definition with
      | none =>
          rw [ancestryWithin_of_end parent]
          cases count with
          | zero => rfl
          | succ count => rw [ancestor?_succ, parent, Option.bind_none, List.getElem?_cons_succ, List.getElem?_nil]
      | some base =>
          rw [parent, Option.bind_some] at ended
          rw [ancestryWithin_of_parent? parent]
          cases count with
          | zero => rfl
          | succ count => rw [ancestor?_succ, parent, Option.bind_some, List.getElem?_cons_succ, ih ended]

/-- A search that goes to the end of a way tells whether the way ends for want of a base in the table. -/
theorem continues_ancestryWithin_iff {limit : Nat} (ended : table.ancestor? definition limit = none) (lacks : Bool) :
    (table.ancestryWithin limit definition).continues = lacks ↔
      ∃ count last, table.ancestor? definition count = some last ∧ table.parent? last = none ∧
        table.lacksBase last = lacks := by
  induction limit generalizing definition with
  | zero => cases ended
  | succ limit ih =>
      rw [exists_ancestor?_iff]
      rw [ancestor?_succ] at ended
      cases parent : table.parent? definition with
      | none => simp only [ancestryWithin_of_end parent, reduceCtorEq, false_and, exists_false, or_false, true_and]
      | some base =>
          rw [parent, Option.bind_some] at ended
          simp only [ancestryWithin_of_parent? parent, ih ended, reduceCtorEq, false_and, false_or,
            Option.some.injEq, exists_eq_left']

section Ancestry

variable (acyclic : table.Acyclic) (held : definition ∈ table.known)

include acyclic held

/-- The search through the bases of a type finds what is on the way up, in order. -/
theorem Acyclic.getElem?_ancestry (count : Nat) :
    (table.ancestry definition).known[count]? = table.ancestor? definition count :=
  getElem?_ancestryWithin (acyclic.ancestor?_size held) count

/-- It goes on in the unknown exactly if the last type has a base in the host that is not in the table. -/
theorem Acyclic.continues_ancestry_iff :
    (table.ancestry definition).continues = true ↔
      ∃ count last, table.ancestor? definition count = some last ∧ table.lacksBase last = true := by
  rw [ancestry, continues_ancestryWithin_iff (acyclic.ancestor?_size held)]
  have atEnd (last : HostDefinition) : table.parent? last = none ∧ table.lacksBase last = true ↔
      table.lacksBase last = true := by
    rw [parent?_eq_none_iff]
    exact and_iff_right_of_imp .inl
  simp only [atEnd]

/-- It does not exactly if the last type has no base, or one that is not the host's. -/
theorem Acyclic.not_continues_ancestry_iff :
    (table.ancestry definition).continues = false ↔
      ∃ count last, table.ancestor? definition count = some last ∧
        ∀ base ∈ last.base, table.owns base.reference = false := by
  rw [ancestry, continues_ancestryWithin_iff (acyclic.ancestor?_size held)]
  have atEnd (last : HostDefinition) : table.parent? last = none ∧ table.lacksBase last = false ↔
      ∀ base ∈ last.base, table.owns base.reference = false := by
    rw [parent?_eq_none_iff]
    unfold lacksBase
    cases last.base with
    | none => simp
    | some base => cases owned : table.owns base.reference <;> simp [owned]
  simp only [atEnd]

end Ancestry

/-! ## Looking for members -/

theorem lookupWithin_eq (table : HostTable) (declares : HostDefinition → Bool) (limit : Nat)
    (definition : HostDefinition) :
    table.lookupWithin declares limit definition = (table.ancestryWithin limit definition).lookup declares := by
  fun_induction lookupWithin table declares limit definition with
  | case1 definition declared | case2 definition declared => simp [ancestryWithin, Ancestry.lookup, declared]
  | case3 limit definition declared =>
      rcases table.exists_known_ancestryWithin (limit + 1) definition with ⟨bases, known⟩
      rw [Ancestry.lookup, known, List.any_cons, declared, Bool.true_or, if_pos rfl]
  | case4 limit definition undeclared root => simp [ancestryWithin, Ancestry.lookup, undeclared, root]
  | case5 limit definition undeclared base based foreign =>
      simp [ancestryWithin, Ancestry.lookup, undeclared, based, foreign]
  | case6 limit definition undeclared base based owned unknown =>
      simp [ancestryWithin, Ancestry.lookup, undeclared, based, owned, unknown]
  | case7 limit definition undeclared base based owned next known ih =>
      rw [ih]
      simp [ancestryWithin, Ancestry.lookup, undeclared, based, owned, known]

/-- Where a member has been found, the first one is taken out of the same type, though bases are gone through in another
way for it: as long as nothing is found, the bases are the host's. -/
theorem firstWithin_of_lookupWithin {Member : Type} {declared : HostDefinition → Option Member} {limit : Nat}
    {definition : HostDefinition}
    (found : table.lookupWithin (fun definition => (declared definition).isSome) limit definition = .found) :
    table.firstWithin declared limit definition =
      (table.ancestryWithin limit definition).known.findSome? declared := by
  induction limit generalizing definition with
  | zero =>
      rw [firstWithin, ancestryWithin, List.findSome?_singleton]
  | succ limit ih =>
      cases here : declared definition with
      | some member =>
          rcases table.exists_known_ancestryWithin (limit + 1) definition with ⟨bases, known⟩
          rw [firstWithin, here, known, List.findSome?_cons, here]
      | none =>
          rw [lookupWithin, here, Option.isSome_none, if_neg Bool.false_ne_true] at found
          split at found
          · cases found
          · rename_i base based
            split at found
            · cases found
            · rename_i owned
              split at found
              · cases found
              · rename_i next known
                rw [Bool.not_eq_true, Bool.not_eq_false'] at owned
                have parent : table.parent? definition = some next := by
                  rw [parent?, based, Option.bind_some, if_pos owned, known]
                rw [firstWithin, here, based, Option.bind_some, known, ancestryWithin_of_parent? parent,
                  List.findSome?_cons, here]
                exact ih found

theorem lookup_eq (table : HostTable) (declares : HostDefinition → Bool) (definition : HostDefinition) :
    table.lookup declares definition = (table.ancestry definition).lookup declares :=
  table.lookupWithin_eq declares table.size definition

theorem first?_of_lookup {Member : Type} {declared : HostDefinition → Option Member} {definition : HostDefinition}
    (found : table.lookup (fun definition => (declared definition).isSome) definition = .found) :
    table.first? declared definition = (table.ancestry definition).known.findSome? declared :=
  firstWithin_of_lookupWithin found

end HostTable

end CilRelink
