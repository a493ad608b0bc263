import Mathlib.Data.List.Find
import CilRelink.Facade.Registry
import CilRelink.Proofs.Dictionary

/-!
# What a registry finds

A facade is registered under two names, that of the type it stands in for and that of its own type, each in an index
of its own. Under each name an index finds the facade that was registered last. A facade which is superseded under one
of its names is still found under the other, though. The indexes therefore tell of the same facades, and go on to do
so, just if facades that share one of their names share both.
-/

namespace CilRelink

namespace Facade

/-- Whether both types of the facade have a definition name, as it takes to be registered. -/
def isKeyed (facade : Facade) : Bool := facade.replaces.definitionName.isSome && facade.type.definitionName.isSome

/-- The last facade of a list that goes by a name, where `nameOf` tells which of its names is meant. -/
def last? (nameOf : Facade → Option String) (facades : List Facade) (name : Option String) : Option Facade :=
  facades.reverse.find? (nameOf · = name)

variable {nameOf otherOf : Facade → Option String} {facades : List Facade} {facade newest : Facade}
variable {name : Option String}

theorem last?_concat :
    last? nameOf (facades ++ [newest]) name =
      if nameOf newest = name then some newest else last? nameOf facades name := by
  by_cases same : nameOf newest = name <;> simp [last?, same]

theorem last?_eq_some (found : last? nameOf facades name = some facade) : facade ∈ facades ∧ nameOf facade = name :=
  ⟨List.mem_reverse.mp (List.mem_of_find?_eq_some found), by simpa using List.find?_some found⟩

theorem exists_last? (nameOf : Facade → Option String) (facadeMem : facade ∈ facades) :
    ∃ found, last? nameOf facades (nameOf facade) = some found := by
  rw [← Option.isSome_iff_exists, last?, List.find?_isSome]
  exact ⟨facade, List.mem_reverse.mpr facadeMem, by simp⟩

theorem eq_of_nodup_names {first second : Facade} {name : String}
    (distinct : (facades.filterMap nameOf).Nodup) (firstMem : first ∈ facades) (secondMem : second ∈ facades)
    (firstNamed : nameOf first = some name) (secondNamed : nameOf second = some name) : first = second := by
  induction facades with
  | nil => cases firstMem
  | cons facade facades ih =>
      rcases List.mem_cons.mp firstMem with rfl | firstLater <;>
        rcases List.mem_cons.mp secondMem with rfl | secondLater
      · rfl
      · rw [List.filterMap_cons_some firstNamed, List.nodup_cons] at distinct
        exact absurd (List.mem_filterMap.mpr ⟨second, secondLater, secondNamed⟩) distinct.1
      · rw [List.filterMap_cons_some secondNamed, List.nodup_cons] at distinct
        exact absurd (List.mem_filterMap.mpr ⟨first, firstLater, firstNamed⟩) distinct.1
      · have fewer := (List.sublist_cons_self facade facades).filterMap nameOf
        exact ih (distinct.sublist fewer) firstLater secondLater

/-- Whether any two of the facades that share one of their names share both. -/
def ShareBoth (nameOf otherOf : Facade → Option String) (facades : List Facade) : Prop :=
  ∀ first ∈ facades, ∀ second ∈ facades, nameOf first = nameOf second ↔ otherOf first = otherOf second

theorem ShareBoth.symm (shared : ShareBoth nameOf otherOf facades) : ShareBoth otherOf nameOf facades :=
  fun first firstMem second secondMem => (shared first firstMem second secondMem).symm

theorem ShareBoth.last?_eq (shared : ShareBoth nameOf otherOf facades) (facadeMem : facade ∈ facades) :
    last? nameOf facades (nameOf facade) = last? otherOf facades (otherOf facade) := by
  apply List.find?_congr
  intro listed listedMem
  simp only [shared listed (List.mem_reverse.mp listedMem) facade facadeMem]

theorem ShareBoth.last?_of_last? (shared : ShareBoth nameOf otherOf facades)
    (found : last? nameOf facades (nameOf facade) = some facade) :
    last? otherOf facades (otherOf facade) = some facade := by
  rw [← shared.last?_eq (last?_eq_some found).1, found]

theorem ShareBoth.other_eq_newest (shared : ShareBoth nameOf otherOf facades)
    (found : ∀ facade, last? otherOf (facades ++ [newest]) (otherOf facade) = some facade →
      last? nameOf (facades ++ [newest]) (nameOf facade) = some facade)
    (facadeMem : facade ∈ facades) (same : nameOf facade = nameOf newest) : otherOf facade = otherOf newest := by
  by_contra different
  -- the last of the older facades with the other name is still found under it, so it should be found under the name
  -- that it shares with the newest one
  rcases exists_last? otherOf facadeMem with ⟨older, foundOlder⟩
  rcases last?_eq_some foundOlder with ⟨olderMem, sameOther⟩
  have sameName : nameOf older = nameOf facade := (shared older olderMem facade facadeMem).mpr sameOther
  have still : last? otherOf (facades ++ [newest]) (otherOf older) = some older := by
    rw [last?_concat, sameOther, if_neg (Ne.symm different), foundOlder]
  have superseded := found older still
  rw [last?_concat, sameName, if_pos same.symm, Option.some.injEq] at superseded
  subst superseded
  exact different sameOther.symm

theorem ShareBoth.concat (shared : ShareBoth nameOf otherOf facades)
    (found : ∀ facade, last? nameOf (facades ++ [newest]) (nameOf facade) = some facade ↔
      last? otherOf (facades ++ [newest]) (otherOf facade) = some facade) :
    ShareBoth nameOf otherOf (facades ++ [newest]) := by
  have withNewest : ∀ older ∈ facades, nameOf older = nameOf newest ↔ otherOf older = otherOf newest :=
    fun older olderMem => ⟨shared.other_eq_newest (fun facade => (found facade).mpr) olderMem,
      shared.symm.other_eq_newest (fun facade => (found facade).mp) olderMem⟩
  intro first firstMem second secondMem
  rw [List.mem_append, List.mem_singleton] at firstMem secondMem
  rcases firstMem with firstMem | rfl <;> rcases secondMem with secondMem | rfl
  · exact shared first firstMem second secondMem
  · exact withNewest first firstMem
  · rw [eq_comm, withNewest second secondMem, eq_comm]
  · simp

/-- Where any two share both names or none, there are as many different names of one kind as of the other. -/
theorem ShareBoth.card_names (shared : ShareBoth nameOf otherOf facades)
    (named : ∀ facade ∈ facades, (nameOf facade).isSome ∧ (otherOf facade).isSome) :
    (facades.filterMap nameOf).toFinset.card = (facades.filterMap otherOf).toFinset.card := by
  induction facades with
  | nil => rfl
  | cons facade facades ih =>
      rw [List.forall_mem_cons] at named
      rcases named with ⟨⟨hasName, hasOther⟩, named⟩
      rcases Option.isSome_iff_exists.mp hasName with ⟨name, isName⟩
      rcases Option.isSome_iff_exists.mp hasOther with ⟨other, isOther⟩
      have rest : ShareBoth nameOf otherOf facades := fun first firstMem second secondMem =>
        shared first (List.mem_cons_of_mem _ firstMem) second (List.mem_cons_of_mem _ secondMem)
      have again : name ∈ (facades.filterMap nameOf).toFinset ↔ other ∈ (facades.filterMap otherOf).toFinset := by
        simp only [List.mem_toFinset, List.mem_filterMap, ← isName, ← isOther]
        exact exists_congr fun older => and_congr_right fun olderMem =>
          shared older (List.mem_cons_of_mem _ olderMem) facade List.mem_cons_self
      simp only [List.filterMap_cons, isName, isOther, List.toFinset_cons]
      rw [Finset.card_insert_eq_ite, Finset.card_insert_eq_ite, ih rest named]
      simp only [again]

end Facade

namespace FacadeRegistry

open Facade (last? ShareBoth)

/-- The registry into which facades were put one after the other. -/
def holding (facades : List Facade) : FacadeRegistry := (empty.insertAll facades).2

variable {facades : List Facade} {facade : Facade} {type : TypeRef}

/-- What goes into an index of the registry. -/
def entries (nameOf : Facade → Option String) (facades : List Facade) : List (String × Facade) :=
  (facades.filter Facade.isKeyed).filterMap fun facade => (nameOf facade).map (·, facade)

theorem accepted_insert (registry : FacadeRegistry) (facade : Facade) :
    (registry.insert facade).accepted = facade.isKeyed := by
  unfold insert Facade.isKeyed
  cases facade.replaces.definitionName <;> cases facade.type.definitionName <;> rfl

theorem insertAll_eq (registry : FacadeRegistry) (facades : List Facade) :
    (registry.insertAll facades).2 =
      ⟨registry.byReplaced.insertEach (entries (·.replaces.definitionName) facades),
        registry.byType.insertEach (entries (·.type.definitionName) facades)⟩ := by
  induction facades generalizing registry with
  | nil => rfl
  | cons facade facades ih =>
      simp only [insertAll, ih, insert]
      cases replaced : facade.replaces.definitionName <;> cases own : facade.type.definitionName <;>
        simp [entries, Facade.isKeyed, replaced, own, Dictionary.insertEach]

/-- An index finds the last facade that was registered under a name. -/
theorem find?_entries {nameOf : Facade → Option String}
    (named : ∀ facade ∈ facades.filter Facade.isKeyed, (nameOf facade).isSome) (name : Option String) :
    name.bind (Dictionary.empty.insertEach (entries nameOf facades)).find? =
      last? nameOf (facades.filter Facade.isKeyed) name := by
  cases name with
  | some name =>
      exact Dictionary.find?_insertEach_entriesOf nameOf _ name
  | none =>
      rw [Option.bind_none, eq_comm, Option.eq_none_iff_forall_ne_some]
      intro facade found
      rcases Facade.last?_eq_some found with ⟨facadeMem, unnamed⟩
      simpa [unnamed] using named facade facadeMem

theorem size_entries (nameOf : Facade → Option String) (facades : List Facade) :
    (Dictionary.empty.insertEach (entries nameOf facades)).size =
      ((facades.filter Facade.isKeyed).filterMap nameOf).toFinset.card :=
  Dictionary.size_insertEach_entriesOf nameOf _

theorem isSome_names (facadeMem : facade ∈ facades.filter Facade.isKeyed) :
    facade.replaces.definitionName.isSome ∧ facade.type.definitionName.isSome := by
  simpa [Facade.isKeyed] using (List.mem_filter.mp facadeMem).2

theorem forReplaced?_holding (facades : List Facade) (type : TypeRef) :
    (holding facades).forReplaced? type =
      last? (·.replaces.definitionName) (facades.filter Facade.isKeyed) type.definitionName := by
  rw [holding, insertAll_eq]
  exact find?_entries (fun _ facadeMem => (isSome_names facadeMem).1) type.definitionName

theorem mem_of_forReplaced?_holding (found : (holding facades).forReplaced? type = some facade) :
    facade ∈ facades.filter Facade.isKeyed ∧ facade.replaces.definitionName = type.definitionName := by
  rw [forReplaced?_holding] at found
  exact Facade.last?_eq_some found

theorem find?_holding (facades : List Facade) (type : TypeRef) :
    (holding facades).find? type =
      last? (·.type.definitionName) (facades.filter Facade.isKeyed) type.definitionName := by
  rw [holding, insertAll_eq]
  exact find?_entries (fun _ facadeMem => (isSome_names facadeMem).2) type.definitionName

theorem find?_type_holding (distinct : (facades.filterMap (·.type.definitionName)).Nodup)
    (facadeMem : facade ∈ facades.filter Facade.isKeyed) :
    (holding facades).find? facade.type.reference = some facade := by
  rcases Facade.exists_last? (·.type.definitionName) facadeMem with ⟨last, found⟩
  rcases Facade.last?_eq_some found with ⟨lastMem, sameName⟩
  have same : last = facade := by
    rcases Option.isSome_iff_exists.mp (isSome_names facadeMem).2 with ⟨name, named⟩
    exact Facade.eq_of_nodup_names distinct (List.mem_of_mem_filter lastMem) (List.mem_of_mem_filter facadeMem)
      (sameName.trans named) named
  subst same
  rw [find?_holding]
  exact found

/-- Whether the indexes tell of the same facades, as many as there are types that a facade stands in for. -/
structure Coherent (registry : FacadeRegistry) : Prop where
  same : ∀ facade, registry.forReplaced? facade.replaces.reference = some facade ↔
    registry.find? facade.type.reference = some facade
  size : registry.size = registry.byReplaced.size

theorem coherent_holding
    (shared : ShareBoth (·.replaces.definitionName) (·.type.definitionName) (facades.filter Facade.isKeyed)) :
    (holding facades).Coherent where
  same facade := by
    rw [forReplaced?_holding, find?_holding]
    exact ⟨shared.last?_of_last?, shared.symm.last?_of_last?⟩
  size := by
    rw [holding, insertAll_eq, size]
    simp only [empty, size_entries]
    exact (shared.card_names fun _ facadeMem => isSome_names facadeMem).symm

theorem shareBoth_of_coherent (coherent : ∀ earlier, earlier <+: facades → (holding earlier).Coherent) :
    ShareBoth (·.replaces.definitionName) (·.type.definitionName) (facades.filter Facade.isKeyed) := by
  -- from the first facade to the newest, as the registry was filled
  induction facades using List.reverseRecOn with
  | nil => simp [ShareBoth]
  | append_singleton facades newest ih =>
      have shared := ih fun earlier isPrefix => coherent earlier (isPrefix.trans (List.prefix_append _ _))
      cases keyed : newest.isKeyed with
      | false => simpa [keyed] using shared
      | true =>
          have now := (coherent _ (List.prefix_refl _)).same
          simp only [forReplaced?_holding, find?_holding, List.filter_append, List.filter_singleton, keyed] at now ⊢
          exact shared.concat now

/-- Whatever facades are put into a registry, those that are accepted are the ones whose types have definition names;
what stands in for a type is the last accepted one over it, the facade of a type is the last accepted one of that type,
and the size is the number of different types of accepted facades. At all times, the two indexes tell of the same
facades, as many as there are types that a facade stands in for, just if any two facades that share one of their names
share both. -/
theorem indexes_find_last (facades : List Facade) :
    let registry := holding facades
    let registered := facades.filter Facade.isKeyed
    (∀ facade, (registry.insert facade).accepted = facade.isKeyed) ∧
    (∀ type : TypeRef,
      registry.forReplaced? type = registered.reverse.find? (·.replaces.definitionName = type.definitionName)) ∧
    (∀ type : TypeRef,
      registry.find? type = registered.reverse.find? (·.type.definitionName = type.definitionName)) ∧
    registry.size = (registered.filterMap (·.type.definitionName)).toFinset.card ∧
    ((∀ earlier, earlier <+: facades → (holding earlier).Coherent) ↔
      ∀ first ∈ registered, ∀ second ∈ registered,
        first.replaces.definitionName = second.replaces.definitionName ↔
          first.type.definitionName = second.type.definitionName) := by
  intro registry registered
  refine ⟨registry.accepted_insert, forReplaced?_holding facades, find?_holding facades, ?_, shareBoth_of_coherent, ?_⟩
  · simp only [registry, holding, insertAll_eq, size, empty]
    exact size_entries _ facades
  · intro shared earlier isPrefix
    have kept : ∀ facade ∈ earlier.filter Facade.isKeyed, facade ∈ registered :=
      (isPrefix.sublist.filter _).subset
    exact coherent_holding fun first firstMem second secondMem =>
      shared first (kept first firstMem) second (kept second secondMem)

/-- A second facade over the type of dates, with a type of its own, supersedes the first one as what stands in for
dates. The first one is still found under its own type, and counted. -/
theorem superseded_found :
    let calendar : Facade := { Facade.worldDate with type := Facade.typeNamed "CalendarFacade" }
    let registry := holding [.worldDate, calendar]
    (registry.forReplaced? Facade.worldDate.replaces.reference).map Facade.type = some calendar.type ∧
      (registry.find? Facade.worldDate.type.reference).map Facade.type = some Facade.worldDate.type ∧
      registry.size = 2 ∧ registry.byReplaced.size = 1 ∧ ¬ registry.Coherent := by
  intro calendar registry
  have size : registry.size = 2 ∧ registry.byReplaced.size = 1 := by decide +kernel
  refine ⟨by decide +kernel, by decide +kernel, size.1, size.2, ?_⟩
  intro coherent
  have same := coherent.size
  rw [size.1, size.2] at same
  cases same

end FacadeRegistry

end CilRelink
