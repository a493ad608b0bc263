import CilRelink.Host.Binding

/-!
# References up to assemblies

What a reference denotes does not depend on the assemblies that it and the types in it are looked up in. Without them,
references that denote the same type are equal. So are all references that denote a live type, and the reference of the
type is one of them.
-/

namespace CilRelink

mutual

/-- The reference without the assemblies that it and the types in it are looked up in. -/
def TypeRef.withoutAssemblies : TypeRef → TypeRef
  | .named type => .named type.withoutAssemblies
  | .placeholder parameter => .placeholder parameter
  | .array element rank => .array element.withoutAssemblies rank
  | .byRef target => .byRef target.withoutAssemblies
  | .pointer target => .pointer target.withoutAssemblies

/-- The type without the assemblies that it and the types in it are looked up in. -/
def NamedType.withoutAssemblies : NamedType → NamedType
  | ⟨dotted, name, none, arguments, _⟩ => ⟨dotted, name, none, TypeRef.eachWithoutAssemblies arguments, none⟩
  | ⟨dotted, name, some outer, arguments, _⟩ =>
    ⟨dotted, name, some outer.withoutAssemblies, TypeRef.eachWithoutAssemblies arguments, none⟩

/-- The references without the assemblies that they and the types in them are looked up in. -/
def TypeRef.eachWithoutAssemblies : List TypeRef → List TypeRef
  | [] => []
  | type :: types => type.withoutAssemblies :: TypeRef.eachWithoutAssemblies types

end

theorem TypeRef.eachWithoutAssemblies_eq_map (types : List TypeRef) :
    TypeRef.eachWithoutAssemblies types = types.map TypeRef.withoutAssemblies := by
  induction types with
  | nil => rfl
  | cons type types ih => rw [TypeRef.eachWithoutAssemblies, List.map_cons, ih]

mutual

/-- Two references denote the same type exactly if they are equal, assemblies aside. -/
theorem TypeRef.denotesSame_iff : (left right : TypeRef) →
    (left.denotesSame right = true ↔ left.withoutAssemblies = right.withoutAssemblies)
  | .named left, .named right => by
    rw [TypeRef.denotesSame, NamedType.denotesSame_iff left right, TypeRef.withoutAssemblies,
      TypeRef.withoutAssemblies, TypeRef.named.injEq]
  | .placeholder left, .placeholder right => by
    simp only [TypeRef.denotesSame, TypeRef.withoutAssemblies, decide_eq_true_eq, TypeRef.placeholder.injEq]
  | .array left _, .array right _ => by
    simp only [TypeRef.denotesSame, TypeRef.withoutAssemblies, Bool.and_eq_true, decide_eq_true_eq,
      TypeRef.denotesSame_iff left right, TypeRef.array.injEq, and_comm]
  | .byRef left, .byRef right => by
    simp only [TypeRef.denotesSame, TypeRef.withoutAssemblies, TypeRef.denotesSame_iff left right, TypeRef.byRef.injEq]
  | .pointer left, .pointer right => by
    simp only [TypeRef.denotesSame, TypeRef.withoutAssemblies, TypeRef.denotesSame_iff left right,
      TypeRef.pointer.injEq]
  | .named _, .placeholder _ | .named _, .array _ _ | .named _, .byRef _ | .named _, .pointer _
  | .placeholder _, .named _ | .placeholder _, .array _ _ | .placeholder _, .byRef _ | .placeholder _, .pointer _
  | .array _ _, .named _ | .array _ _, .placeholder _ | .array _ _, .byRef _ | .array _ _, .pointer _
  | .byRef _, .named _ | .byRef _, .placeholder _ | .byRef _, .array _ _ | .byRef _, .pointer _
  | .pointer _, .named _ | .pointer _, .placeholder _ | .pointer _, .array _ _ | .pointer _, .byRef _ => by
    simp [TypeRef.denotesSame, TypeRef.withoutAssemblies]

theorem NamedType.denotesSame_iff : (left right : NamedType) →
    (left.denotesSame right = true ↔ left.withoutAssemblies = right.withoutAssemblies)
  | ⟨_, _, none, leftArguments, _⟩, ⟨_, _, none, rightArguments, _⟩ => by
    simp only [NamedType.denotesSame, NamedType.withoutAssemblies, Bool.and_eq_true, decide_eq_true_eq,
      TypeRef.denoteSame_iff leftArguments rightArguments, NamedType.mk.injEq, true_and, and_true, and_assoc]
  | ⟨_, _, some leftOuter, leftArguments, _⟩, ⟨_, _, some rightOuter, rightArguments, _⟩ => by
    simp only [NamedType.denotesSame, NamedType.withoutAssemblies, Bool.and_eq_true, decide_eq_true_eq,
      NamedType.denotesSame_iff leftOuter rightOuter, TypeRef.denoteSame_iff leftArguments rightArguments,
      NamedType.mk.injEq, Option.some.injEq, and_true, and_assoc]
  | ⟨_, _, none, _, _⟩, ⟨_, _, some _, _, _⟩ | ⟨_, _, some _, _, _⟩, ⟨_, _, none, _, _⟩ => by
    simp [NamedType.denotesSame, NamedType.withoutAssemblies]

theorem TypeRef.denoteSame_iff : (left right : List TypeRef) →
    (TypeRef.denoteSame left right = true ↔
      TypeRef.eachWithoutAssemblies left = TypeRef.eachWithoutAssemblies right)
  | [], [] => by simp [TypeRef.denoteSame, TypeRef.eachWithoutAssemblies]
  | left :: lefts, right :: rights => by
    simp only [TypeRef.denoteSame, TypeRef.eachWithoutAssemblies, Bool.and_eq_true,
      TypeRef.denotesSame_iff left right, TypeRef.denoteSame_iff lefts rights, List.cons.injEq]
  | [], _ :: _ | _ :: _, [] => by simp [TypeRef.denoteSame, TypeRef.eachWithoutAssemblies]

end

namespace HostType

mutual

/-- Whether a reference denotes a type does not depend on assemblies. -/
@[simp]
theorem isDenotedBy_withoutAssemblies : (type : HostType) → (reference : TypeRef) →
    type.isDenotedBy reference.withoutAssemblies = type.isDenotedBy reference
  | .named _ _ _ none arguments, .named ⟨_, _, none, refArguments, _⟩ => by
    simp only [TypeRef.withoutAssemblies, NamedType.withoutAssemblies, isDenotedBy,
      areDenotedBy_withoutAssemblies arguments refArguments]
  | .named _ _ _ (some outer) arguments, .named ⟨_, _, some refOuter, refArguments, _⟩ => by
    have around := isDenotedBy_withoutAssemblies outer (.named refOuter)
    simp only [TypeRef.withoutAssemblies] at around
    simp only [TypeRef.withoutAssemblies, NamedType.withoutAssemblies, isDenotedBy, around,
      areDenotedBy_withoutAssemblies arguments refArguments]
  | .array element _, .array refElement _ => by
    simp only [TypeRef.withoutAssemblies, isDenotedBy, isDenotedBy_withoutAssemblies element refElement]
  | .byRef target, .byRef refTarget => by
    simp only [TypeRef.withoutAssemblies, isDenotedBy, isDenotedBy_withoutAssemblies target refTarget]
  | .pointer target, .pointer refTarget => by
    simp only [TypeRef.withoutAssemblies, isDenotedBy, isDenotedBy_withoutAssemblies target refTarget]
  | .named _ _ _ none _, .named ⟨_, _, some _, _, _⟩ | .named _ _ _ (some _) _, .named ⟨_, _, none, _, _⟩
  | .named .., .placeholder _ | .named .., .array .. | .named .., .byRef _ | .named .., .pointer _
  | .array .., .named _ | .array .., .placeholder _ | .array .., .byRef _ | .array .., .pointer _
  | .byRef _, .named _ | .byRef _, .placeholder _ | .byRef _, .array .. | .byRef _, .pointer _
  | .pointer _, .named _ | .pointer _, .placeholder _ | .pointer _, .array .. | .pointer _, .byRef _ => by
    simp only [TypeRef.withoutAssemblies, NamedType.withoutAssemblies, isDenotedBy]

@[simp]
theorem areDenotedBy_withoutAssemblies : (types : List HostType) → (references : List TypeRef) →
    areDenotedBy types (TypeRef.eachWithoutAssemblies references) = areDenotedBy types references
  | [], [] | [], _ :: _ | _ :: _, [] => rfl
  | type :: types, reference :: references => by
    simp only [TypeRef.eachWithoutAssemblies, areDenotedBy, isDenotedBy_withoutAssemblies type reference,
      areDenotedBy_withoutAssemblies types references]

end

theorem references_eq_map (types : List HostType) : references types = types.map reference := by
  induction types with
  | nil => rfl
  | cons type types ih => rw [references, List.map_cons, ih]

/-- Whether the type is no array, reference or pointer. -/
def IsNamed : HostType → Prop
  | .named .. => True
  | _ => False

theorem isNamed_of_isDenotedBy {type : HostType} {named : NamedType}
    (denoted : type.isDenotedBy (.named named) = true) : type.IsNamed := by
  cases type with
  | named => trivial
  | _ => simp only [isDenotedBy, Bool.false_eq_true] at denoted

theorem reference_eq_named {type : HostType} (isNamed : type.IsNamed) :
    type.reference = .named type.enclosingReference := by
  cases type with
  | named _ _ _ enclosing _ => cases enclosing <;> rfl
  | _ => cases isNamed

mutual

/-- A reference that denotes a type is that of the type, assemblies aside. -/
theorem withoutAssemblies_eq_of_isDenotedBy : (type : HostType) → (reference : TypeRef) →
    type.isDenotedBy reference = true → type.reference.withoutAssemblies = reference.withoutAssemblies
  | .named _ _ _ none arguments, .named ⟨_, _, none, refArguments, _⟩, denoted => by
    simp only [isDenotedBy, Bool.and_eq_true, decide_eq_true_eq] at denoted
    rcases denoted with ⟨⟨rfl, rfl⟩, denoted⟩
    simp only [HostType.reference, TypeRef.withoutAssemblies, NamedType.withoutAssemblies,
      eachWithoutAssemblies_eq_of_areDenotedBy arguments refArguments denoted]
  | .named _ _ _ (some outer) arguments, .named ⟨_, _, some refOuter, refArguments, _⟩, denoted => by
    simp only [isDenotedBy, Bool.and_eq_true, decide_eq_true_eq] at denoted
    rcases denoted with ⟨⟨⟨rfl, rfl⟩, around⟩, denoted⟩
    -- what encloses a type has a reference of its own, for it is denoted by one and so is not a shape
    have sameAround := withoutAssemblies_eq_of_isDenotedBy outer (.named refOuter) around
    rw [reference_eq_named (isNamed_of_isDenotedBy around), TypeRef.withoutAssemblies, TypeRef.withoutAssemblies,
      TypeRef.named.injEq] at sameAround
    simp only [HostType.reference, TypeRef.withoutAssemblies, NamedType.withoutAssemblies, sameAround,
      eachWithoutAssemblies_eq_of_areDenotedBy arguments refArguments denoted]
  | .array element _, .array refElement _, denoted => by
    simp only [isDenotedBy, Bool.and_eq_true, decide_eq_true_eq] at denoted
    simp only [HostType.reference, TypeRef.withoutAssemblies, denoted.1,
      withoutAssemblies_eq_of_isDenotedBy element refElement denoted.2]
  | .byRef target, .byRef refTarget, denoted => by
    simp only [HostType.reference, TypeRef.withoutAssemblies,
      withoutAssemblies_eq_of_isDenotedBy target refTarget denoted]
  | .pointer target, .pointer refTarget, denoted => by
    simp only [HostType.reference, TypeRef.withoutAssemblies,
      withoutAssemblies_eq_of_isDenotedBy target refTarget denoted]

theorem eachWithoutAssemblies_eq_of_areDenotedBy : (types : List HostType) → (references : List TypeRef) →
    areDenotedBy types references = true →
      TypeRef.eachWithoutAssemblies (HostType.references types) = TypeRef.eachWithoutAssemblies references
  | [], [], _ => rfl
  | type :: types, reference :: references, denoted => by
    simp only [areDenotedBy, Bool.and_eq_true] at denoted
    simp only [HostType.references, TypeRef.eachWithoutAssemblies,
      withoutAssemblies_eq_of_isDenotedBy type reference denoted.1,
      eachWithoutAssemblies_eq_of_areDenotedBy types references denoted.2]

end

end HostType

end CilRelink
