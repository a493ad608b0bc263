import CilRelink.Proofs.Reference.Identity

/-!
# Skeletons and placeholders

A reference is its skeleton, in which nothing tells the placeholders apart, with its placeholders put in from first to
last. So references are the same, assemblies aside, if they have the same skeleton and the same placeholders, and to
rename the placeholders leaves the skeleton as it is.
-/

namespace CilRelink

mutual

/-- The placeholders in the order in which they stand, those of the type around a type before those of its
arguments. -/
def TypeRef.placeholders : TypeRef → List Placeholder
  | .named type => type.placeholders
  | .placeholder parameter => [parameter]
  | .array element _ => element.placeholders
  | .byRef target => target.placeholders
  | .pointer target => target.placeholders

/-- The placeholders of a named type, those of the type around it first. -/
def NamedType.placeholders : NamedType → List Placeholder
  | ⟨_, _, none, arguments, _⟩ => TypeRef.placeholdersOfEach arguments
  | ⟨_, _, some outer, arguments, _⟩ => outer.placeholders ++ TypeRef.placeholdersOfEach arguments

/-- The placeholders of one type after the other. -/
def TypeRef.placeholdersOfEach : List TypeRef → List Placeholder
  | [] => []
  | type :: types => type.placeholders ++ TypeRef.placeholdersOfEach types

end

mutual

/-- The reference with other placeholders in the place of its own. -/
def TypeRef.rename (naming : Placeholder → Placeholder) : TypeRef → TypeRef
  | .named type => .named (type.rename naming)
  | .placeholder parameter => .placeholder (naming parameter)
  | .array element rank => .array (element.rename naming) rank
  | .byRef target => .byRef (target.rename naming)
  | .pointer target => .pointer (target.rename naming)

/-- The named type with other placeholders in the place of its own. -/
def NamedType.rename (naming : Placeholder → Placeholder) : NamedType → NamedType
  | ⟨dotted, name, none, arguments, assembly⟩ =>
    ⟨dotted, name, none, TypeRef.renameEach naming arguments, assembly⟩
  | ⟨dotted, name, some outer, arguments, assembly⟩ =>
    ⟨dotted, name, some (outer.rename naming), TypeRef.renameEach naming arguments, assembly⟩

/-- The references with other placeholders in the place of their own. -/
def TypeRef.renameEach (naming : Placeholder → Placeholder) : List TypeRef → List TypeRef
  | [] => []
  | type :: types => type.rename naming :: TypeRef.renameEach naming types

end

mutual

/-- The reference without assemblies and with one and the same placeholder in the place of each. -/
def TypeRef.skeleton : TypeRef → TypeRef
  | .named type => .named type.skeleton
  | .placeholder _ => .placeholder ⟨.type, 0, none⟩
  | .array element rank => .array element.skeleton rank
  | .byRef target => .byRef target.skeleton
  | .pointer target => .pointer target.skeleton

/-- The named type without assemblies and with one and the same placeholder in the place of each. -/
def NamedType.skeleton : NamedType → NamedType
  | ⟨dotted, name, none, arguments, _⟩ => ⟨dotted, name, none, TypeRef.skeletonOfEach arguments, none⟩
  | ⟨dotted, name, some outer, arguments, _⟩ =>
    ⟨dotted, name, some outer.skeleton, TypeRef.skeletonOfEach arguments, none⟩

/-- The references without assemblies and with one and the same placeholder in the place of each. -/
def TypeRef.skeletonOfEach : List TypeRef → List TypeRef
  | [] => []
  | type :: types => type.skeleton :: TypeRef.skeletonOfEach types

end

/-! ## The same skeleton -/

mutual

theorem TypeRef.placeholders_skeleton : (type : TypeRef) →
    type.skeleton.placeholders.length = type.placeholders.length
  | .named type => NamedType.placeholders_skeleton type
  | .placeholder _ => rfl
  | .array element _ => TypeRef.placeholders_skeleton element
  | .byRef target => TypeRef.placeholders_skeleton target
  | .pointer target => TypeRef.placeholders_skeleton target

theorem NamedType.placeholders_skeleton : (type : NamedType) →
    type.skeleton.placeholders.length = type.placeholders.length
  | ⟨_, _, none, arguments, _⟩ => TypeRef.placeholdersOfEach_skeleton arguments
  | ⟨_, _, some outer, arguments, _⟩ => by
    simp only [NamedType.skeleton, NamedType.placeholders, List.length_append,
      NamedType.placeholders_skeleton outer, TypeRef.placeholdersOfEach_skeleton arguments]

theorem TypeRef.placeholdersOfEach_skeleton : (types : List TypeRef) →
    (TypeRef.placeholdersOfEach (TypeRef.skeletonOfEach types)).length = (TypeRef.placeholdersOfEach types).length
  | [] => rfl
  | type :: types => by
    simp only [TypeRef.skeletonOfEach, TypeRef.placeholdersOfEach, List.length_append,
      TypeRef.placeholders_skeleton type, TypeRef.placeholdersOfEach_skeleton types]

end

/-- References with the same skeleton have as many placeholders. -/
theorem TypeRef.length_placeholders {left right : TypeRef} (same : left.skeleton = right.skeleton) :
    left.placeholders.length = right.placeholders.length := by
  rw [← TypeRef.placeholders_skeleton left, same, TypeRef.placeholders_skeleton right]

theorem NamedType.length_placeholders {left right : NamedType} (same : left.skeleton = right.skeleton) :
    left.placeholders.length = right.placeholders.length := by
  rw [← NamedType.placeholders_skeleton left, same, NamedType.placeholders_skeleton right]

mutual

/-- References are the same, assemblies aside, exactly if they have the same skeleton and the same placeholders. -/
theorem TypeRef.withoutAssemblies_eq_iff : (left right : TypeRef) →
    (left.withoutAssemblies = right.withoutAssemblies ↔
      left.skeleton = right.skeleton ∧ left.placeholders = right.placeholders)
  | .named left, .named right => by
    simp only [TypeRef.withoutAssemblies, TypeRef.skeleton, TypeRef.placeholders, TypeRef.named.injEq,
      NamedType.withoutAssemblies_eq_iff left right]
  | .placeholder _, .placeholder _ => by
    simp only [TypeRef.withoutAssemblies, TypeRef.skeleton, TypeRef.placeholders, TypeRef.placeholder.injEq,
      List.cons.injEq, and_true, true_and]
  | .array left _, .array right _ => by
    simp only [TypeRef.withoutAssemblies, TypeRef.skeleton, TypeRef.placeholders, TypeRef.array.injEq,
      TypeRef.withoutAssemblies_eq_iff left right, and_right_comm]
  | .byRef left, .byRef right => by
    simp only [TypeRef.withoutAssemblies, TypeRef.skeleton, TypeRef.placeholders, TypeRef.byRef.injEq,
      TypeRef.withoutAssemblies_eq_iff left right]
  | .pointer left, .pointer right => by
    simp only [TypeRef.withoutAssemblies, TypeRef.skeleton, TypeRef.placeholders, TypeRef.pointer.injEq,
      TypeRef.withoutAssemblies_eq_iff left right]
  | .named _, .placeholder _ | .named _, .array _ _ | .named _, .byRef _ | .named _, .pointer _
  | .placeholder _, .named _ | .placeholder _, .array _ _ | .placeholder _, .byRef _ | .placeholder _, .pointer _
  | .array _ _, .named _ | .array _ _, .placeholder _ | .array _ _, .byRef _ | .array _ _, .pointer _
  | .byRef _, .named _ | .byRef _, .placeholder _ | .byRef _, .array _ _ | .byRef _, .pointer _
  | .pointer _, .named _ | .pointer _, .placeholder _ | .pointer _, .array _ _ | .pointer _, .byRef _ => by
    simp only [TypeRef.withoutAssemblies, TypeRef.skeleton, reduceCtorEq, false_and]

theorem NamedType.withoutAssemblies_eq_iff : (left right : NamedType) →
    (left.withoutAssemblies = right.withoutAssemblies ↔
      left.skeleton = right.skeleton ∧ left.placeholders = right.placeholders)
  | ⟨_, _, none, leftArguments, _⟩, ⟨_, _, none, rightArguments, _⟩ => by
    simp only [NamedType.withoutAssemblies, NamedType.skeleton, NamedType.placeholders, NamedType.mk.injEq,
      TypeRef.eachWithoutAssemblies_eq_iff leftArguments rightArguments, true_and, and_true, and_assoc]
  | ⟨_, _, some leftOuter, leftArguments, _⟩, ⟨_, _, some rightOuter, rightArguments, _⟩ => by
    simp only [NamedType.withoutAssemblies, NamedType.skeleton, NamedType.placeholders, NamedType.mk.injEq,
      Option.some.injEq, NamedType.withoutAssemblies_eq_iff leftOuter rightOuter,
      TypeRef.eachWithoutAssemblies_eq_iff leftArguments rightArguments, and_true]
    constructor
    · rintro ⟨sameSpace, sameName, ⟨sameOuter, outer⟩, sameArguments, inner⟩
      exact ⟨⟨sameSpace, sameName, sameOuter, sameArguments⟩, by rw [outer, inner]⟩
    · rintro ⟨⟨sameSpace, sameName, sameOuter, sameArguments⟩, all⟩
      rw [List.append_eq_append_iff_of_size_eq_left (NamedType.length_placeholders sameOuter)] at all
      exact ⟨sameSpace, sameName, ⟨sameOuter, all.1⟩, sameArguments, all.2⟩
  | ⟨_, _, none, _, _⟩, ⟨_, _, some _, _, _⟩ | ⟨_, _, some _, _, _⟩, ⟨_, _, none, _, _⟩ => by
    simp only [NamedType.withoutAssemblies, NamedType.skeleton, NamedType.mk.injEq, reduceCtorEq, false_and, and_false]

theorem TypeRef.eachWithoutAssemblies_eq_iff : (lefts rights : List TypeRef) →
    (TypeRef.eachWithoutAssemblies lefts = TypeRef.eachWithoutAssemblies rights ↔
      TypeRef.skeletonOfEach lefts = TypeRef.skeletonOfEach rights ∧
        TypeRef.placeholdersOfEach lefts = TypeRef.placeholdersOfEach rights)
  | [], [] => by simp only [TypeRef.eachWithoutAssemblies, TypeRef.skeletonOfEach, TypeRef.placeholdersOfEach, and_self]
  | left :: lefts, right :: rights => by
    simp only [TypeRef.eachWithoutAssemblies, TypeRef.skeletonOfEach, TypeRef.placeholdersOfEach, List.cons.injEq,
      TypeRef.withoutAssemblies_eq_iff left right, TypeRef.eachWithoutAssemblies_eq_iff lefts rights]
    constructor
    · rintro ⟨⟨same, front⟩, sameRest, rest⟩
      exact ⟨⟨same, sameRest⟩, by rw [front, rest]⟩
    · rintro ⟨⟨same, sameRest⟩, all⟩
      rw [List.append_eq_append_iff_of_size_eq_left (TypeRef.length_placeholders same)] at all
      exact ⟨⟨same, all.1⟩, sameRest, all.2⟩
  | [], _ :: _ | _ :: _, [] => by
    simp only [TypeRef.eachWithoutAssemblies, TypeRef.skeletonOfEach, reduceCtorEq, false_and]

end

/-! ## Renaming -/

mutual

theorem TypeRef.skeleton_rename (naming : Placeholder → Placeholder) : (type : TypeRef) →
    (type.rename naming).skeleton = type.skeleton
  | .named type => by rw [TypeRef.rename, TypeRef.skeleton, TypeRef.skeleton, NamedType.skeleton_rename naming type]
  | .placeholder _ => rfl
  | .array element _ => by
    rw [TypeRef.rename, TypeRef.skeleton, TypeRef.skeleton, TypeRef.skeleton_rename naming element]
  | .byRef target => by rw [TypeRef.rename, TypeRef.skeleton, TypeRef.skeleton, TypeRef.skeleton_rename naming target]
  | .pointer target => by rw [TypeRef.rename, TypeRef.skeleton, TypeRef.skeleton, TypeRef.skeleton_rename naming target]

theorem NamedType.skeleton_rename (naming : Placeholder → Placeholder) : (type : NamedType) →
    (type.rename naming).skeleton = type.skeleton
  | ⟨_, _, none, arguments, _⟩ => by
    rw [NamedType.rename, NamedType.skeleton, NamedType.skeleton, TypeRef.skeletonOfEach_rename naming arguments]
  | ⟨_, _, some outer, arguments, _⟩ => by
    rw [NamedType.rename, NamedType.skeleton, NamedType.skeleton, NamedType.skeleton_rename naming outer,
      TypeRef.skeletonOfEach_rename naming arguments]

theorem TypeRef.skeletonOfEach_rename (naming : Placeholder → Placeholder) : (types : List TypeRef) →
    TypeRef.skeletonOfEach (TypeRef.renameEach naming types) = TypeRef.skeletonOfEach types
  | [] => rfl
  | type :: types => by
    rw [TypeRef.renameEach, TypeRef.skeletonOfEach, TypeRef.skeletonOfEach, TypeRef.skeleton_rename naming type,
      TypeRef.skeletonOfEach_rename naming types]

end

mutual

theorem TypeRef.placeholders_rename (naming : Placeholder → Placeholder) : (type : TypeRef) →
    (type.rename naming).placeholders = type.placeholders.map naming
  | .named type => NamedType.placeholders_rename naming type
  | .placeholder _ => rfl
  | .array element _ => TypeRef.placeholders_rename naming element
  | .byRef target => TypeRef.placeholders_rename naming target
  | .pointer target => TypeRef.placeholders_rename naming target

theorem NamedType.placeholders_rename (naming : Placeholder → Placeholder) : (type : NamedType) →
    (type.rename naming).placeholders = type.placeholders.map naming
  | ⟨_, _, none, arguments, _⟩ => TypeRef.placeholdersOfEach_rename naming arguments
  | ⟨_, _, some outer, arguments, _⟩ => by
    rw [NamedType.rename, NamedType.placeholders, NamedType.placeholders, List.map_append,
      NamedType.placeholders_rename naming outer, TypeRef.placeholdersOfEach_rename naming arguments]

theorem TypeRef.placeholdersOfEach_rename (naming : Placeholder → Placeholder) : (types : List TypeRef) →
    TypeRef.placeholdersOfEach (TypeRef.renameEach naming types) = (TypeRef.placeholdersOfEach types).map naming
  | [] => rfl
  | type :: types => by
    rw [TypeRef.renameEach, TypeRef.placeholdersOfEach, TypeRef.placeholdersOfEach, List.map_append,
      TypeRef.placeholders_rename naming type, TypeRef.placeholdersOfEach_rename naming types]

end

end CilRelink
