import CilRelink.Host.Table
import CilRelink.Proofs.Host.Binding

/-!
# Where a type and its reference are looked up

Of the assemblies recorded for a type and for the types around it, that of the type itself counts, or else that of the
innermost type which has one. The reference of the type keeps the records, but only two of them count: its own, and that
of the type directly around. So the two agree unless the first record stands farther out. A table that registers such a
type knows its assembly, and still does not own its reference.
-/

namespace CilRelink

namespace HostType

variable {type : HostType}

/-- What is recorded as the assembly of a type, of the type around it, and so on outwards. A shape has the records of
what it is made of. -/
def records : HostType → List (Option String)
  | .named _ _ own none _ => [own]
  | .named _ _ own (some outer) _ => own :: records outer
  | .array element _ => records element
  | .byRef target => records target
  | .pointer target => records target

/-- Whether the types on the way outwards are named ones. -/
def NamedOutwards : HostType → Prop
  | .named _ _ _ none _ => True
  | .named _ _ _ (some outer) _ => outer.IsNamed ∧ NamedOutwards outer
  | .array element _ => NamedOutwards element
  | .byRef target => NamedOutwards target
  | .pointer target => NamedOutwards target

/-- The first record counts. -/
theorem assembly_eq_findSome? : (type : HostType) → type.assembly = type.records.findSome? id
  | .named _ _ none none _ => rfl
  | .named _ _ none (some outer) _ => assembly_eq_findSome? outer
  | .named _ _ (some _) none _ => rfl
  | .named _ _ (some _) (some _) _ => rfl
  | .array element _ => assembly_eq_findSome? element
  | .byRef target => assembly_eq_findSome? target
  | .pointer target => assembly_eq_findSome? target

/-- Of the reference the first counts, if it is one of the first two. -/
theorem assembly_reference_eq_findSome? : (type : HostType) → type.NamedOutwards →
    type.reference.assembly = (type.records.take 2).findSome? id
  | .named _ _ none none _, _ => rfl
  | .named _ _ (some _) none _, _ => rfl
  | .named _ _ (some _) (some _) _, _ => rfl
  | .named _ _ none (some (.named _ _ outerOwn none _)) _, _ => by cases outerOwn <;> rfl
  | .named _ _ none (some (.named _ _ outerOwn (some _) _)) _, _ => by cases outerOwn <;> rfl
  | .named _ _ none (some (.array _ _)) _, outwards => outwards.1.elim
  | .named _ _ none (some (.byRef _)) _, outwards => outwards.1.elim
  | .named _ _ none (some (.pointer _)) _, outwards => outwards.1.elim
  | .array element _, outwards => assembly_reference_eq_findSome? element outwards
  | .byRef target, outwards => assembly_reference_eq_findSome? target outwards
  | .pointer target, outwards => assembly_reference_eq_findSome? target outwards

/-- If the reference is looked up anywhere, then where the type is. -/
theorem assembly_of_reference {assembly : String} (outwards : type.NamedOutwards)
    (looked : type.reference.assembly = some assembly) : type.assembly = some assembly := by
  rw [assembly_reference_eq_findSome? type outwards] at looked
  rw [assembly_eq_findSome?, ← List.take_append_drop 2 type.records, List.findSome?_append, looked, Option.some_or]

/-- A type and its reference agree exactly if nothing is recorded, or something in the first two places. -/
theorem assembly_reference_eq_iff (outwards : type.NamedOutwards) :
    type.reference.assembly = type.assembly ↔
      type.assembly = none ∨ ∃ assembly, some assembly ∈ type.records.take 2 := by
  have near : (∃ assembly, some assembly ∈ type.records.take 2) ↔ type.reference.assembly ≠ none := by
    rw [assembly_reference_eq_findSome? type outwards, Option.ne_none_iff_isSome, List.findSome?_isSome_iff]
    exact ⟨fun ⟨assembly, recorded⟩ => ⟨some assembly, recorded, rfl⟩, fun ⟨record, recorded, isSome⟩ =>
      ⟨record.get isSome, by simpa using recorded⟩⟩
  rw [near]
  cases looked : type.reference.assembly with
  | none => simp [eq_comm]
  | some assembly => simp [assembly_of_reference outwards looked]

theorem definitionName_of_isNamed (isNamed : type.IsNamed) :
    type.definitionName = some type.enclosingReference.definitionName := by
  rw [definitionName, reference_eq_named isNamed, TypeRef.definitionName]

theorem definitionName_of_shape (shape : ¬ type.IsNamed) : type.definitionName = none := by
  cases type with
  | named => exact absurd trivial shape
  | array | byRef | pointer => rfl

end HostType

namespace HostTable

variable {table : HostTable} {definition : HostDefinition}

theorem mem_assemblies_registerAssembly (table : HostTable) (name : String) :
    name ∈ (table.registerAssembly name).assemblies := by
  unfold registerAssembly
  by_cases known : name ∈ table.assemblies <;> simp [known]

/-- A definition of a type that is no named type is refused, and the table stays as it is. -/
theorem table_register_of_shape (shape : ¬ definition.type.IsNamed) : (table.register definition).table = table := by
  rw [register, HostType.definitionName_of_shape shape]

/-- The table knows the assembly of a type that it registers. -/
theorem mem_assemblies_register {assembly : String} (isNamed : definition.type.IsNamed)
    (recorded : definition.type.assembly = some assembly) :
    assembly ∈ (table.register definition).table.assemblies := by
  rw [register, HostType.definitionName_of_isNamed isNamed, recorded]
  exact mem_assemblies_registerAssembly table assembly

theorem owns_iff {reference : TypeRef} :
    table.owns reference = true ↔ ∃ assembly, reference.assembly = some assembly ∧ assembly ∈ table.assemblies := by
  unfold owns ownsAssembly
  cases reference.assembly <;> simp

/-- A type has the first assembly recorded on the way outwards, and its reference the first of two, so the two agree
exactly if nothing is recorded or something for the type itself or the type around it. A table that registers a type
with an assembly owns its reference exactly if the two agree; it does not register shapes. -/
theorem reference_owned_iff_agrees {type : HostType} (outwards : type.NamedOutwards) :
    type.assembly = type.records.findSome? id ∧
      type.reference.assembly = (type.records.take 2).findSome? id ∧
      (type.reference.assembly = type.assembly ↔
        type.assembly = none ∨ ∃ assembly, some assembly ∈ type.records.take 2) ∧
      ∀ (table : HostTable) (definition : HostDefinition), definition.type = type →
        (type.IsNamed → type.assembly ≠ none →
          ((table.register definition).table.owns type.reference = true ↔
            type.reference.assembly = type.assembly)) ∧
        (¬ type.IsNamed → (table.register definition).table = table) := by
  refine ⟨type.assembly_eq_findSome?, type.assembly_reference_eq_findSome? outwards,
    HostType.assembly_reference_eq_iff outwards, ?_⟩
  rintro table definition rfl
  refine ⟨fun isNamed recorded => ?_, table_register_of_shape⟩
  rcases Option.ne_none_iff_exists'.mp recorded with ⟨assembly, known⟩
  rw [owns_iff, known]
  constructor
  · rintro ⟨other, looked, _⟩
    rw [looked, ← known, HostType.assembly_of_reference outwards looked]
  · exact fun agree => ⟨assembly, agree, mem_assemblies_register isNamed known⟩

section Forest

/-- A tree, whose assembly is recorded. -/
def tree : HostType := (HostType.simple "Forest" "Tree").inAssembly "Woods"

/-- The branches of trees. -/
def branch : HostType := .nested tree "Branch"

/-- The leaves of these branches. -/
def leaf : HostType := .nested branch "Leaf"

/-- The leaf of a branch of a tree is of the assembly of the tree, but its reference is looked up in none. -/
theorem reference_of_leaf_not_owned :
    leaf.NamedOutwards ∧ leaf.assembly = some "Woods" ∧ leaf.reference.assembly = none ∧
      (empty.register (.empty leaf)).accepted = true ∧
      (empty.register (.empty leaf)).table.owns leaf.reference = false :=
  ⟨⟨trivial, trivial, trivial⟩, by decide +kernel⟩

theorem reference_owned_iff_agrees_branch :
    branch.NamedOutwards ∧ branch.IsNamed ∧ branch.assembly ≠ none ∧
      branch.reference.assembly = branch.assembly ∧
      (empty.register (.empty branch)).table.owns branch.reference = true ∧
      (HostType.array leaf 1).NamedOutwards ∧ ¬ (HostType.array leaf 1).IsNamed ∧
      (empty.register (.empty (HostType.array leaf 1))).table = empty := by
  have outwards : branch.NamedOutwards := ⟨trivial, trivial⟩
  have shapeOutwards : (HostType.array leaf 1).NamedOutwards := ⟨trivial, trivial, trivial⟩
  have recorded : branch.assembly ≠ none := by decide
  have agree : branch.reference.assembly = branch.assembly :=
    (reference_owned_iff_agrees outwards).2.2.1.mpr (.inr ⟨"Woods", by decide⟩)
  exact ⟨outwards, trivial, recorded, agree,
    (((reference_owned_iff_agrees outwards).2.2.2 empty (.empty branch) rfl).1 trivial recorded).mpr agree,
    shapeOutwards, id, ((reference_owned_iff_agrees shapeOutwards).2.2.2 empty (.empty _) rfl).2 id⟩

end Forest

end HostTable

end CilRelink
