import Mathlib.Data.List.Forall2
import Mathlib.Data.Set.Function
import CilRelink.Proofs.Reference.Resemblance

/-!
# Renaming the parameters of a method

Types resemble each other if a one-to-one renaming of placeholders leads from one to the other. Signatures are compared
parameter by parameter, and each pair of parameters may take a renaming of its own. There is a single one for all of
them just if all their placeholders, from the first parameter to the last, are placed alike. A certain match needs no
renaming at all.
-/

namespace CilRelink

namespace Placeholder

variable {lefts rights : List Placeholder} {mapping : Placeholder → Placeholder}

/-- What stands in the second list where a placeholder first stands in the first. -/
def counterpart (lefts rights : List Placeholder) (parameter : Placeholder) : Placeholder :=
  (rights[lefts.idxOf parameter]?).getD parameter

theorem PlacedAlike.map_counterpart (alike : PlacedAlike lefts rights) :
    lefts.map (counterpart lefts rights) = rights := by
  refine List.ext_getElem? fun i => ?_
  rw [List.getElem?_map]
  rcases exists_pair_or_none alike.length_eq i with ⟨pair, _, left, right⟩ | ⟨left, right⟩
  · have first : lefts[lefts.idxOf pair.1]? = lefts[i]? := by
      rw [left, List.getElem?_idxOf (List.mem_of_getElem? left)]
    rw [left, Option.map_some, counterpart, (alike.repeats _ i).mp first, right, Option.getD_some]
  · rw [left, right, Option.map_none]

theorem PlacedAlike.injOn (alike : PlacedAlike lefts rights) (leads : lefts.map mapping = rights) :
    Set.InjOn mapping {parameter | parameter ∈ lefts} := by
  intro first firstMem second secondMem same
  rcases List.mem_iff_getElem?.mp firstMem with ⟨i, atFirst⟩
  rcases List.mem_iff_getElem?.mp secondMem with ⟨j, atSecond⟩
  have repeats := alike.repeats i j
  rw [← leads, List.getElem?_map, List.getElem?_map, atFirst, atSecond, Option.map_some, Option.map_some,
    Option.some.injEq, Option.some.injEq] at repeats
  exact repeats.mpr same

theorem PlacedAlike.owner_eq (alike : PlacedAlike lefts rights) (leads : lefts.map mapping = rights) :
    ∀ parameter ∈ lefts, (mapping parameter).owner = parameter.owner := by
  have owners := alike.owners
  rw [← leads, List.map_map, List.map_inj_left] at owners
  exact fun parameter parameterMem => (owners parameter parameterMem).symm

theorem placedAlike_of_injOn (injective : Set.InjOn mapping {parameter | parameter ∈ lefts})
    (owner : ∀ parameter ∈ lefts, (mapping parameter).owner = parameter.owner) :
    PlacedAlike lefts (lefts.map mapping) := by
  refine ⟨?_, fun i j => ?_⟩
  · rw [List.map_map]
    exact List.map_congr_left fun parameter parameterMem => (owner parameter parameterMem).symm
  · rw [List.getElem?_map, List.getElem?_map]
    cases atFirst : lefts[i]? with
    | none => cases lefts[j]? <;> simp
    | some first =>
        cases atSecond : lefts[j]? with
        | none => simp
        | some second =>
            rw [Option.map_some, Option.map_some, Option.some.injEq, Option.some.injEq]
            exact (injective.eq_iff (List.mem_of_getElem? atFirst) (List.mem_of_getElem? atSecond)).symm

/-- Placeholders that are placed alike in front of others, and those behind them. -/
theorem PlacedAlike.of_append {moreLefts moreRights : List Placeholder} (sameLength : lefts.length = rights.length)
    (alike : PlacedAlike (lefts ++ moreLefts) (rights ++ moreRights)) :
    PlacedAlike lefts rights ∧ PlacedAlike moreLefts moreRights := by
  have moreLength : moreLefts.length = moreRights.length := by
    have together := alike.length_eq
    rw [List.length_append, List.length_append] at together
    omega
  have oneToOne := (placedAlike_iff alike.length_eq).mp alike
  rw [List.zip_append sameLength] at oneToOne
  exact ⟨(placedAlike_iff sameLength).mpr (oneToOne.mono (List.subset_append_left _ _)),
    (placedAlike_iff moreLength).mpr (oneToOne.mono (List.subset_append_right _ _))⟩

theorem bijOn_of_injOn (injective : Set.InjOn mapping {parameter | parameter ∈ lefts}) :
    Set.BijOn mapping {parameter | parameter ∈ lefts} {parameter | parameter ∈ lefts.map mapping} := by
  have image : mapping '' {parameter | parameter ∈ lefts} = {parameter | parameter ∈ lefts.map mapping} := by
    ext parameter
    exact List.mem_map.symm
  exact image ▸ injective.bijOn_image

end Placeholder

namespace TypeRef

open Placeholder

variable {mapping : Placeholder → Placeholder} {lefts rights : List TypeRef} {left right : TypeRef}

/-- Whether a mapping leads one to one from the placeholders of types to those of others, keeps their owners, and makes
the types the same one by one, assemblies aside. -/
structure Renames (mapping : Placeholder → Placeholder) (lefts rights : List TypeRef) : Prop where
  bijOn : Set.BijOn mapping {parameter | parameter ∈ placeholdersOfEach lefts}
    {parameter | parameter ∈ placeholdersOfEach rights}
  owner : ∀ parameter ∈ placeholdersOfEach lefts, (mapping parameter).owner = parameter.owner
  same : eachWithoutAssemblies (renameEach mapping lefts) = eachWithoutAssemblies rights

theorem eachWithoutAssemblies_renameEach_iff :
    eachWithoutAssemblies (renameEach mapping lefts) = eachWithoutAssemblies rights ↔
      skeletonOfEach lefts = skeletonOfEach rights ∧
        (placeholdersOfEach lefts).map mapping = placeholdersOfEach rights := by
  rw [eachWithoutAssemblies_eq_iff, skeletonOfEach_rename, placeholdersOfEach_rename]

theorem Renames.of_injOn (injective : Set.InjOn mapping {parameter | parameter ∈ placeholdersOfEach lefts})
    (owner : ∀ parameter ∈ placeholdersOfEach lefts, (mapping parameter).owner = parameter.owner)
    (sameSkeletons : skeletonOfEach lefts = skeletonOfEach rights)
    (leads : (placeholdersOfEach lefts).map mapping = placeholdersOfEach rights) : Renames mapping lefts rights where
  bijOn := leads ▸ bijOn_of_injOn injective
  owner := owner
  same := eachWithoutAssemblies_renameEach_iff.mpr ⟨sameSkeletons, leads⟩

/-- One mapping leads from types to others exactly if they have the same skeletons, with placeholders that are placed
alike in all of them together. -/
theorem exists_renames_iff :
    (∃ mapping, Renames mapping lefts rights) ↔
      skeletonOfEach lefts = skeletonOfEach rights ∧
        PlacedAlike (placeholdersOfEach lefts) (placeholdersOfEach rights) := by
  constructor
  · rintro ⟨mapping, bijOn, owner, same⟩
    rcases eachWithoutAssemblies_renameEach_iff.mp same with ⟨sameSkeletons, leads⟩
    exact ⟨sameSkeletons, leads ▸ placedAlike_of_injOn bijOn.injOn owner⟩
  -- The mapping is read off the lists: placeholders that are repeated alike have one counterpart each.
  · rintro ⟨sameSkeletons, alike⟩
    have leads := alike.map_counterpart
    exact ⟨_, .of_injOn (alike.injOn leads) (alike.owner_eq leads) sameSkeletons leads⟩

/-- Types resemble each other exactly if there is a renaming of their own. -/
theorem resembles_iff_exists_renames : left.resembles right = true ↔ ∃ mapping, Renames mapping [left] [right] := by
  rw [resembles_iff, exists_renames_iff]
  simp only [skeletonOfEach, placeholdersOfEach, List.append_nil, List.cons.injEq, and_true]

/-- Types are the same one by one exactly if nothing has to be renamed. -/
theorem denoteSame_iff_renames_id : denoteSame lefts rights = true ↔ Renames id lefts rights := by
  rw [denoteSame_iff, eachWithoutAssemblies_eq_iff]
  constructor
  · rintro ⟨sameSkeletons, samePlaceholders⟩
    exact .of_injOn Function.injective_id.injOn (fun _ _ => rfl) sameSkeletons (by rw [List.map_id, samePlaceholders])
  · rintro ⟨_, _, same⟩
    rw [eachWithoutAssemblies_renameEach_iff, List.map_id] at same
    exact same

/-! ## Parameter by parameter -/

theorem skeletonOfEach_eq_of_resemble
    (alike : List.Forall₂ (fun left right => left.resembles right = true) lefts rights) :
    skeletonOfEach lefts = skeletonOfEach rights := by
  induction alike with
  | nil => rfl
  | cons first _ ih => rw [skeletonOfEach, skeletonOfEach, (resembles_iff.mp first).1, ih]

theorem resemble_of_placedAlike (sameSkeletons : skeletonOfEach lefts = skeletonOfEach rights)
    (alike : PlacedAlike (placeholdersOfEach lefts) (placeholdersOfEach rights)) :
    List.Forall₂ (fun left right => left.resembles right = true) lefts rights := by
  induction lefts generalizing rights with
  | nil =>
      cases rights with
      | nil => exact .nil
      | cons right rights => cases sameSkeletons
  | cons left lefts ih =>
      cases rights with
      | nil => cases sameSkeletons
      | cons right rights =>
          rcases List.cons.inj sameSkeletons with ⟨same, sameRest⟩
          -- What is placed alike throughout is so in each parameter. The converse fails, for nothing relates the parts.
          rcases alike.of_append (length_placeholders same) with ⟨first, rest⟩
          exact .cons (resembles_iff.mpr ⟨same, first⟩) (ih sameRest rest)

/-- One renaming serves all pairs exactly if each has one and the placeholders of all are placed alike. -/
theorem exists_renames_iff_each :
    (∃ mapping, Renames mapping lefts rights) ↔
      List.Forall₂ (fun left right => left.resembles right = true) lefts rights ∧
        PlacedAlike (placeholdersOfEach lefts) (placeholdersOfEach rights) := by
  rw [exists_renames_iff]
  exact ⟨fun ⟨same, alike⟩ => ⟨resemble_of_placedAlike same alike, alike⟩,
    fun ⟨each, alike⟩ => ⟨skeletonOfEach_eq_of_resemble each, alike⟩⟩

theorem compare_eq_exact_iff : left.compare right = some .exact ↔ left.denotesSame right = true := by
  unfold compare
  cases left.denotesSame right <;> cases left.resembles right <;> simp

theorem isSome_compare_iff : (left.compare right).isSome = true ↔ left.resembles right = true := by
  unfold compare
  cases same : left.denotesSame right with
  | true => simp [resembles_of_denotesSame same]
  | false => cases left.resembles right <;> simp

/-- Types are compared one by one, each pair for itself. -/
theorem isSome_compareAll_iff :
    (compareAll lefts rights).isSome = true ↔
      List.Forall₂ (fun left right => left.resembles right = true) lefts rights := by
  induction lefts generalizing rights with
  | nil => cases rights <;> simp [compareAll]
  | cons left lefts ih =>
      cases rights with
      | nil => simp [compareAll]
      | cons right rights =>
          rw [List.forall₂_cons, ← ih, ← isSome_compare_iff, compareAll]
          cases left.compare right <;> cases compareAll lefts rights <;> simp

theorem compareAll_eq_exact_iff : compareAll lefts rights = some .exact ↔ denoteSame lefts rights = true := by
  induction lefts generalizing rights with
  | nil => cases rights <;> simp [compareAll, denoteSame]
  | cons left lefts ih =>
      cases rights with
      | nil => simp [compareAll, denoteSame]
      | cons right rights =>
          rw [denoteSame, Bool.and_eq_true, ← ih, ← compare_eq_exact_iff, compareAll]
          rcases left.compare right with _ | _ | _ <;> rcases compareAll lefts rights with _ | _ | _ <;>
            simp [Confidence.weaker]

end TypeRef

namespace MethodRef

open TypeRef (Renames placeholdersOfEach)
open Placeholder (PlacedAlike)

variable {definition reference : MethodRef}

theorem isSome_compareSignature_iff :
    (definition.compareSignature reference).isSome = true ↔
      definition.name = reference.name ∧
        List.Forall₂ (fun left right => left.resembles right = true) definition.parameters reference.parameters := by
  unfold compareSignature
  split
  · rename_i name
    rw [TypeRef.isSome_compareAll_iff, and_iff_right name]
  · rename_i name
    simp [name]

theorem compareSignature_eq_exact_iff :
    definition.compareSignature reference = some .exact ↔
      definition.name = reference.name ∧ Renames id definition.parameters reference.parameters := by
  unfold compareSignature
  split
  · rename_i name
    rw [TypeRef.compareAll_eq_exact_iff, TypeRef.denoteSame_iff_renames_id, and_iff_right name]
  · rename_i name
    simp [name]

/-- Signatures match if the methods have the same name and each pair of parameters has a renaming of its own. One
renaming serves all parameters exactly if, besides, the placeholders of all of them together are placed alike; and none
is needed exactly if the match is certain. -/
theorem compareSignature_renames_each (definition reference : MethodRef) :
    ((definition.compareSignature reference).isSome = true ↔
      definition.name = reference.name ∧
        List.Forall₂ (fun left right => ∃ mapping, Renames mapping [left] [right]) definition.parameters
          reference.parameters) ∧
    (definition.name = reference.name ∧ (∃ mapping, Renames mapping definition.parameters reference.parameters) ↔
      (definition.compareSignature reference).isSome = true ∧
        PlacedAlike (placeholdersOfEach definition.parameters) (placeholdersOfEach reference.parameters)) ∧
    (definition.compareSignature reference = some .exact ↔
      definition.name = reference.name ∧ Renames id definition.parameters reference.parameters) := by
  refine ⟨?_, ?_, compareSignature_eq_exact_iff⟩
  · simp only [isSome_compareSignature_iff, TypeRef.resembles_iff_exists_renames]
  · rw [isSome_compareSignature_iff, TypeRef.exists_renames_iff_each, and_assoc]

section Filling

/-- The method that fills a table from two sources. -/
def filling (first second : TypeRef) : MethodRef :=
  ⟨.simple "Storage" "Table", "Fill", .void, [first, second], true, []⟩

/-- Two parameters that differ match two that are the same, though no one-to-one mapping leads from one to the other. -/
theorem compareSignature_maps_two_to_one :
    let positional := filling (TypeRef.atPosition 0) (TypeRef.atPosition 1)
    let declared := filling (TypeRef.declaredAs "TKey" 0) (TypeRef.declaredAs "TKey" 0)
    positional.compareSignature declared = some .heuristic ∧
      ¬ ∃ mapping, Renames mapping positional.parameters declared.parameters := by
  intro positional declared
  refine ⟨by decide, fun renames => ?_⟩
  have alike := (TypeRef.exists_renames_iff.mp renames).2
  exact absurd ((alike.repeats 0 1).mpr rfl) (by decide)

end Filling

end MethodRef

end CilRelink
