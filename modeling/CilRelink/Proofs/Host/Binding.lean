import CilRelink.Proofs.Reference.Identity

/-!
# Binding by way of references

A live type can be compared with a reference itself, or through the reference that compiled code would use for it.
The two differ only in what they make of a type enclosed in a shape: no reference denotes it, but its own reference has
a type with the text of the shape around it, and denotes the same as others that do. So whether a reference denotes a
type is a question about the reference of the type, and of whether all that encloses anything in it is named.
-/

namespace CilRelink

namespace HostType

variable {type part outer : HostType} {types : List HostType} {reference : TypeRef}

/-- The type directly around a type; only named types have one. -/
def enclosing? : HostType → Option HostType
  | .named _ _ _ enclosing _ => enclosing
  | _ => none

/-- Whether a type occurs in another: as the type itself, or in the type around it, in an argument, in the element of
an array, or in the target of a reference or pointer. -/
inductive Occurs (part : HostType) : HostType → Prop where
  | self : Occurs part part
  | enclosing {dotted name : String} {assembly : Option String} {outer : HostType} {arguments : List HostType}
      (inside : Occurs part outer) : Occurs part (.named dotted name assembly (some outer) arguments)
  | argument {dotted name : String} {assembly : Option String} {enclosing : Option HostType}
      {arguments : List HostType} {argument : HostType} (argumentMem : argument ∈ arguments)
      (inside : Occurs part argument) : Occurs part (.named dotted name assembly enclosing arguments)
  | element {element : HostType} {rank : Nat} (inside : Occurs part element) : Occurs part (.array element rank)
  | byRef {target : HostType} (inside : Occurs part target) : Occurs part (.byRef target)
  | pointer {target : HostType} (inside : Occurs part target) : Occurs part (.pointer target)

/-- Whether only named types enclose what occurs in the type. -/
def NamedEnclose (type : HostType) : Prop :=
  ∀ part outer, Occurs part type → part.enclosing? = some outer → outer.IsNamed

theorem NamedEnclose.of_occurs (enclose : type.NamedEnclose)
    (lift : ∀ {inner}, Occurs inner part → Occurs inner type) : part.NamedEnclose :=
  fun _ _ inside around => enclose _ _ (lift inside) around

/-! ## Parts of denoted types -/

theorem exists_isDenotedBy_of_mem {references : List TypeRef} (denoted : areDenotedBy types references = true)
    (typeMem : type ∈ types) : ∃ reference, type.isDenotedBy reference = true := by
  induction types generalizing references with
  | nil => cases typeMem
  | cons first types ih =>
      cases references with
      | nil => cases denoted
      | cons reference references =>
          simp only [areDenotedBy, Bool.and_eq_true] at denoted
          rcases List.mem_cons.mp typeMem with rfl | typeMem
          · exact ⟨reference, denoted.1⟩
          · exact ih denoted.2 typeMem

section Named

variable {dotted name : String} {assembly : Option String} {arguments : List HostType}

theorem exists_isDenotedBy_enclosing
    (denoted : (named dotted name assembly (some outer) arguments).isDenotedBy reference = true) :
    ∃ around, outer.isDenotedBy (.named around) = true := by
  rcases reference with ⟨_, _, _ | around, _, _⟩ | _
  all_goals simp only [isDenotedBy, Bool.and_eq_true, Bool.false_eq_true] at denoted
  exact ⟨around, denoted.1.2⟩

theorem exists_areDenotedBy_arguments {enclosing : Option HostType}
    (denoted : (named dotted name assembly enclosing arguments).isDenotedBy reference = true) :
    ∃ references, areDenotedBy arguments references = true := by
  rcases reference with ⟨_, _, _ | around, references, _⟩ | _
  all_goals
    rcases enclosing with _ | outer
    all_goals simp only [isDenotedBy, Bool.and_eq_true, Bool.false_eq_true] at denoted
  · exact ⟨references, denoted.2⟩
  · exact ⟨references, denoted.2⟩

end Named

/-- What occurs in a type that is denoted is denoted itself. -/
theorem Occurs.exists_isDenotedBy (occurs : Occurs part type) (denoted : type.isDenotedBy reference = true) :
    ∃ inner, part.isDenotedBy inner = true := by
  induction occurs generalizing reference with
  | self => exact ⟨reference, denoted⟩
  | enclosing inside ih =>
      rcases exists_isDenotedBy_enclosing denoted with ⟨around, aroundDenoted⟩
      exact ih aroundDenoted
  | argument argumentMem inside ih =>
      rcases exists_areDenotedBy_arguments denoted with ⟨references, argumentsDenoted⟩
      rcases exists_isDenotedBy_of_mem argumentsDenoted argumentMem with ⟨inner, innerDenoted⟩
      exact ih innerDenoted
  | element inside ih =>
      cases reference <;> simp only [isDenotedBy, Bool.and_eq_true, Bool.false_eq_true] at denoted
      exact ih denoted.2
  | byRef inside ih | pointer inside ih =>
      cases reference <;> simp only [isDenotedBy, Bool.false_eq_true] at denoted
      exact ih denoted

/-- As a shape is denoted by no named reference, none encloses anything in a type that is denoted. -/
theorem namedEnclose_of_isDenotedBy (denoted : type.isDenotedBy reference = true) : type.NamedEnclose := by
  intro part outer occurs around
  rcases occurs.exists_isDenotedBy denoted with ⟨inner, partDenoted⟩
  rcases part with ⟨dotted, name, assembly, enclosing, arguments⟩ | _
  all_goals simp only [enclosing?, reduceCtorEq] at around
  subst around
  rcases exists_isDenotedBy_enclosing partDenoted with ⟨aroundReference, outerDenoted⟩
  exact isNamed_of_isDenotedBy outerDenoted

/-! ## A type and its own reference -/

mutual

theorem isDenotedBy_reference : (type : HostType) → type.NamedEnclose → type.isDenotedBy type.reference = true
  | .named _ _ _ none arguments, enclose => by
    have inside : areDenotedBy arguments (references arguments) = true :=
      areDenotedBy_references arguments fun _ argumentMem => enclose.of_occurs (.argument argumentMem)
    simp only [HostType.reference, isDenotedBy, inside, decide_true, Bool.and_self]
  | .named _ _ _ (some outer) arguments, enclose => by
    have inside : areDenotedBy arguments (references arguments) = true :=
      areDenotedBy_references arguments fun _ argumentMem => enclose.of_occurs (.argument argumentMem)
    have around := isDenotedBy_reference outer (enclose.of_occurs .enclosing)
    rw [reference_eq_named (enclose _ outer .self rfl)] at around
    simp only [HostType.reference, isDenotedBy, inside, around, decide_true, Bool.and_self]
  | .array element _, enclose => by
    simp only [HostType.reference, isDenotedBy, decide_true, Bool.true_and]
    exact isDenotedBy_reference element (enclose.of_occurs .element)
  | .byRef target, enclose => by
    simp only [HostType.reference, isDenotedBy]
    exact isDenotedBy_reference target (enclose.of_occurs .byRef)
  | .pointer target, enclose => by
    simp only [HostType.reference, isDenotedBy]
    exact isDenotedBy_reference target (enclose.of_occurs .pointer)

theorem areDenotedBy_references : (types : List HostType) → (∀ type ∈ types, type.NamedEnclose) →
    areDenotedBy types (references types) = true
  | [], _ => rfl
  | type :: types, enclose => by
    rw [List.forall_mem_cons] at enclose
    simp only [references, areDenotedBy, Bool.and_eq_true]
    exact ⟨isDenotedBy_reference type enclose.1, areDenotedBy_references types enclose.2⟩

end

/-- It can be computed whether only named types enclose what occurs in a type. -/
theorem isDenotedBy_reference_iff : type.isDenotedBy type.reference = true ↔ type.NamedEnclose :=
  ⟨namedEnclose_of_isDenotedBy, isDenotedBy_reference type⟩

instance : Decidable type.NamedEnclose := decidable_of_iff _ isDenotedBy_reference_iff

/-! ## Both ways to compare -/

/-- The references that denote a type are those that denote the same as its own, if there are any. -/
theorem isDenotedBy_iff :
    type.isDenotedBy reference = true ↔ type.NamedEnclose ∧ type.reference.denotesSame reference = true := by
  rw [TypeRef.denotesSame_iff]
  constructor
  · intro denoted
    exact ⟨namedEnclose_of_isDenotedBy denoted, withoutAssemblies_eq_of_isDenotedBy type reference denoted⟩
  · rintro ⟨enclose, same⟩
    rw [← isDenotedBy_withoutAssemblies, ← same, isDenotedBy_withoutAssemblies]
    exact isDenotedBy_reference type enclose

theorem areDenotedBy_iff {references : List TypeRef} :
    areDenotedBy types references = true ↔
      (∀ type ∈ types, type.NamedEnclose) ∧ TypeRef.denoteSame (HostType.references types) references = true := by
  induction types generalizing references with
  | nil =>
      cases references <;>
        simp only [areDenotedBy, HostType.references, TypeRef.denoteSame, List.not_mem_nil, false_implies,
          implies_true, true_and]
  | cons type types ih =>
      cases references with
      | nil =>
          simp only [areDenotedBy, HostType.references, TypeRef.denoteSame, Bool.false_eq_true, and_false]
      | cons reference references =>
          simp only [areDenotedBy, HostType.references, TypeRef.denoteSame, Bool.and_eq_true, isDenotedBy_iff, ih,
            List.forall_mem_cons, and_and_and_comm]

/-- Both ways to compare a type agree on all references exactly if they agree on the type's own. -/
theorem forall_isDenotedBy_eq_iff :
    (∀ reference, type.isDenotedBy reference = type.reference.denotesSame reference) ↔ type.NamedEnclose := by
  constructor
  · intro agree
    rw [← isDenotedBy_reference_iff, agree, TypeRef.denotesSame_iff]
  · intro enclose reference
    rw [Bool.eq_iff_iff, isDenotedBy_iff]
    exact and_iff_right enclose

end HostType

namespace HostMethod

variable {method : HostMethod} {reference : MethodRef}

theorem hasSignature_iff (declaring : HostType) :
    method.hasSignature reference = true ↔
      (∀ parameter ∈ method.parameters, parameter.type.NamedEnclose) ∧
        (method.reference declaring).sameSignature reference = true := by
  have parameters : (method.reference declaring).parameters =
      HostType.references (method.parameters.map HostParameter.type) := by
    rw [HostType.references_eq_map, List.map_map]
    rfl
  have name : (method.reference declaring).name = method.name := rfl
  rw [hasSignature, MethodRef.sameSignature, parameters, name, Bool.and_eq_true, Bool.and_eq_true,
    HostType.areDenotedBy_iff, List.forall_mem_map, and_left_comm]

/-- The same holds for the parameters of a method, whatever type declares it. -/
theorem forall_hasSignature_eq_iff :
    (∀ declaring reference, method.hasSignature reference = (method.reference declaring).sameSignature reference) ↔
      ∀ parameter ∈ method.parameters, parameter.type.NamedEnclose := by
  constructor
  · intro agree
    have own : (method.reference default).sameSignature (method.reference default) = true := by
      simp only [MethodRef.sameSignature, decide_true, Bool.true_and, TypeRef.denoteSame_iff]
    rw [← agree default] at own
    exact ((hasSignature_iff default).mp own).1
  · intro enclose declaring reference
    rw [Bool.eq_iff_iff, hasSignature_iff declaring]
    exact and_iff_right enclose

end HostMethod

/-- Comparing a live type with references comes to the same as comparing its own reference with them, exactly if only
named types enclose what occurs in it. Likewise for the signature of a method with such parameters, whatever type
declares it. -/
theorem binding_agrees_with_references :
    (∀ type : HostType, (∀ reference, type.isDenotedBy reference = type.reference.denotesSame reference) ↔
      type.NamedEnclose) ∧
    ∀ method : HostMethod,
      (∀ declaring reference, method.hasSignature reference = (method.reference declaring).sameSignature reference) ↔
        ∀ parameter ∈ method.parameters, parameter.type.NamedEnclose :=
  ⟨fun _ => HostType.forall_isDenotedBy_eq_iff, fun _ => HostMethod.forall_hasSignature_eq_iff⟩

namespace HostType

/-- Lists of arrays of the tabs of a menu. -/
def tabLists : HostType :=
  let menu := simple "StardewValley.Menus" "ShopMenu"
  .named "System.Collections.Generic" "List" none none [.array (nested menu "Tab") 1]

/-- A type inside an array type. -/
def insideArray : HostType := nested (.array int32 1) "Enumerator"

theorem binding_agrees_with_references_tabLists :
    tabLists.NamedEnclose ∧
      (∀ reference, tabLists.isDenotedBy reference = tabLists.reference.denotesSame reference) ∧
      ¬ insideArray.NamedEnclose ∧
      ¬ (∀ reference, insideArray.isDenotedBy reference = insideArray.reference.denotesSame reference) ∧
      ∀ declaring reference, ((HostMethod.plain "show" .void).withParameter "tabs" tabLists).hasSignature reference =
        (((HostMethod.plain "show" .void).withParameter "tabs" tabLists).reference declaring).sameSignature
          reference := by
  have enclose : tabLists.NamedEnclose := by decide +kernel
  have shape : ¬ insideArray.NamedEnclose := by decide +kernel
  rcases binding_agrees_with_references with ⟨types, methods⟩
  refine ⟨enclose, (types _).mpr enclose, shape, mt (types _).mp shape, (methods _).mpr ?_⟩
  simpa [HostMethod.withParameter, HostMethod.plain] using enclose

end HostType

end CilRelink
