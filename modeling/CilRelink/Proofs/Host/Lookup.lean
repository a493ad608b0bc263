import Mathlib.Data.List.Find
import CilRelink.Host.Table
import CilRelink.Proofs.Dictionary
import CilRelink.Proofs.Host.Assembly
import CilRelink.Proofs.Reference.DefinitionName

/-!
# What the table of live types finds

The table keeps definitions under definition names, one under each. So whatever is entered, a reference finds the last
definition that was entered under the name it goes by. Where names tell identities, this is the last definition of a
type that goes by the namespace and the simple names of the reference, and there are as many definitions as different
identities.
-/

namespace CilRelink

/-- Whether the reference goes by an identity whose parts hold no separators. -/
def TypeRef.KnownAs (reference : TypeRef) (identity : TypeIdentity) : Prop :=
  reference.identity? = some identity ∧ identity.IsPlain

/-- Whether the type goes by an identity whose parts hold no separators. -/
def HostType.KnownAs (type : HostType) (identity : TypeIdentity) : Prop :=
  type.identity? = some identity ∧ identity.IsPlain

namespace TypeRef.KnownAs

variable {left right : TypeRef} {leftIdentity rightIdentity : TypeIdentity}

theorem definitionName_eq (known : left.KnownAs leftIdentity) : left.definitionName = some leftIdentity.key := by
  rw [TypeRef.definitionName_eq_map, known.1, Option.map_some]

theorem definitionName_eq_iff (known : left.KnownAs leftIdentity) (otherKnown : right.KnownAs rightIdentity) :
    left.definitionName = right.definitionName ↔ leftIdentity = rightIdentity := by
  rw [known.definitionName_eq, otherKnown.definitionName_eq, Option.some.injEq,
    TypeIdentity.key_inj known.2 otherKnown.2]

end TypeRef.KnownAs

/-- A live type goes by the identity of its reference. -/
theorem HostType.KnownAs.reference {type : HostType} {identity : TypeIdentity} (known : type.KnownAs identity) :
    type.reference.KnownAs identity := ⟨identity?_reference known.1, known.2⟩

namespace HostTable

variable {definitions : List HostDefinition} {definition : HostDefinition}

/-- The table into which definitions were entered one after the other. -/
def holding (definitions : List HostDefinition) : HostTable := (empty.registerAll definitions).2

theorem definitions_registerAssembly (table : HostTable) (name : String) :
    (table.registerAssembly name).definitions = table.definitions := rfl

theorem definitions_register (table : HostTable) (definition : HostDefinition) :
    (table.register definition).table.definitions =
      table.definitions.insertEach (Dictionary.entriesOf (·.type.definitionName) [definition]) := by
  unfold register
  cases named : definition.type.definitionName with
  | none => simp [Dictionary.entriesOf, Dictionary.insertEach, named]
  | some key =>
      cases definition.type.assembly <;>
        simp [Dictionary.entriesOf, Dictionary.insertEach, named, definitions_registerAssembly]

theorem definitions_registerAll (table : HostTable) (definitions : List HostDefinition) :
    (table.registerAll definitions).2.definitions =
      table.definitions.insertEach (Dictionary.entriesOf (·.type.definitionName) definitions) := by
  induction definitions generalizing table with
  | nil => rfl
  | cons definition definitions ih =>
      rw [registerAll, ih, definitions_register, ← Dictionary.insertEach_append, Dictionary.entriesOf,
        Dictionary.entriesOf, Dictionary.entriesOf, ← List.filterMap_append, List.singleton_append]

/-- A reference finds the last definition that was entered under its name. -/
theorem find?_holding {reference : TypeRef} {name : String} (named : reference.definitionName = some name) :
    (holding definitions).find? reference = definitions.reverse.find? (·.type.definitionName = some name) := by
  rw [find?, named, Option.bind_some, findByName?, holding, definitions_registerAll]
  exact Dictionary.find?_insertEach_entriesOf _ definitions name

/-- There are as many definitions as there are names. -/
theorem size_holding (definitions : List HostDefinition) :
    (holding definitions).size = (definitions.filterMap (·.type.definitionName)).toFinset.card := by
  rw [size, holding, definitions_registerAll]
  exact Dictionary.size_insertEach_entriesOf _ definitions

section Known

variable (known : ∀ definition ∈ definitions, ∃ identity, definition.type.KnownAs identity)

include known

/-- Nothing is refused. -/
theorem log_registerAll_of_known (table : HostTable) : (table.registerAll definitions).1 = [] := by
  induction definitions generalizing table with
  | nil => rfl
  | cons definition definitions ih =>
      rw [List.forall_mem_cons] at known
      rcases known.1 with ⟨identity, knownAs⟩
      have accepted : (table.register definition).log = [] := by
        rw [register, HostType.definitionName, knownAs.reference.definitionName_eq]
      have rest := ih known.2 (table.register definition).table
      simp only [registerAll, accepted, rest, List.append_nil]

theorem find?_holding_of_known {reference : TypeRef} {identity : TypeIdentity} (knownAs : reference.KnownAs identity) :
    (holding definitions).find? reference = definitions.reverse.find? (·.type.identity? = some identity) := by
  rw [find?_holding knownAs.definitionName_eq]
  apply List.find?_congr
  intro definition definitionMem
  rcases known definition (List.mem_reverse.mp definitionMem) with ⟨other, otherKnown⟩
  have sameName := otherKnown.reference.definitionName_eq_iff knownAs
  rw [knownAs.definitionName_eq] at sameName
  rw [decide_eq_decide, otherKnown.1, Option.some.injEq]
  exact sameName

theorem size_holding_of_known :
    (holding definitions).size = (definitions.filterMap (·.type.identity?)).toFinset.card := by
  have names : definitions.filterMap (·.type.definitionName) =
      (definitions.filterMap (·.type.identity?)).map TypeIdentity.key := by
    rw [List.map_filterMap]
    apply List.filterMap_congr
    intro definition definitionMem
    rcases known definition definitionMem with ⟨identity, knownAs⟩
    rw [knownAs.1]
    exact knownAs.reference.definitionName_eq
  have keys : Set.InjOn TypeIdentity.key (definitions.filterMap (·.type.identity?)).toFinset := by
    have plain : ∀ identity ∈ definitions.filterMap (·.type.identity?), identity.IsPlain := by
      intro identity identityMem
      rcases List.mem_filterMap.mp identityMem with ⟨definition, definitionMem, isIdentity⟩
      rcases known definition definitionMem with ⟨other, otherKnown⟩
      rw [otherKnown.1, Option.some.injEq] at isIdentity
      exact isIdentity ▸ otherKnown.2
    intro left leftMem right rightMem
    rw [Finset.mem_coe, List.mem_toFinset] at leftMem rightMem
    exact (TypeIdentity.key_inj (plain left leftMem) (plain right rightMem)).mp
  have image : (definitions.filterMap (·.type.definitionName)).toFinset =
      (definitions.filterMap (·.type.identity?)).toFinset.image TypeIdentity.key := by
    rw [names]
    ext name
    simp only [List.mem_toFinset, List.mem_map, Finset.mem_image]
  rw [size_holding, image, Finset.card_image_of_injOn keys]

end Known

/-- The identity of a named type is made of the namespace and the name that it is looked up by and of the names of the
types around it. Types whose names hold no separators have one definition name just if they have one identity, live
types and references alike. So a table of such types, all of which it accepts, finds for a reference the last
definition of a type of its identity, and holds as many definitions as there are identities. -/
theorem looks_up_by_identity :
    (∀ {type : HostType} {identity : TypeIdentity}, type.identity? = some identity →
      identity.dottedNamespace = type.lookupNamespace ∧ identity.name = type.simpleName) ∧
    (∀ {reference : TypeRef} {identity : TypeIdentity}, reference.identity? = some identity →
      identity.dottedNamespace = reference.lookupNamespace ∧ identity.name = reference.simpleName) ∧
    (∀ {left right : HostType} {leftIdentity rightIdentity : TypeIdentity},
      left.KnownAs leftIdentity → right.KnownAs rightIdentity →
        (left.definitionName = right.definitionName ↔ leftIdentity = rightIdentity)) ∧
    (∀ {type : HostType} {reference : TypeRef} {typeIdentity referenceIdentity : TypeIdentity},
      type.KnownAs typeIdentity → reference.KnownAs referenceIdentity →
        (type.definitionName = reference.definitionName ↔ typeIdentity = referenceIdentity)) ∧
    (∀ {left right : TypeRef} {leftIdentity rightIdentity : TypeIdentity},
      left.KnownAs leftIdentity → right.KnownAs rightIdentity →
        (left.definitionName = right.definitionName ↔ leftIdentity = rightIdentity)) ∧
    ∀ definitions : List HostDefinition, (∀ definition ∈ definitions, ∃ identity, definition.type.KnownAs identity) →
      (empty.registerAll definitions).1 = [] ∧
      (∀ {reference : TypeRef} {identity : TypeIdentity}, reference.KnownAs identity →
        (empty.registerAll definitions).2.find? reference =
          definitions.reverse.find? (·.type.identity? = some identity)) ∧
      (empty.registerAll definitions).2.size = (definitions.filterMap (·.type.identity?)).toFinset.card :=
  ⟨HostType.parts_of_identity?, TypeRef.parts_of_identity?,
    fun known otherKnown => known.reference.definitionName_eq_iff otherKnown.reference,
    fun known otherKnown => known.reference.definitionName_eq_iff otherKnown,
    fun known otherKnown => known.definitionName_eq_iff otherKnown,
    fun _ known => ⟨log_registerAll_of_known known empty, find?_holding_of_known known, size_holding_of_known known⟩⟩

section Shop

/-- A menu of a shop. -/
def menu : HostType := (HostType.simple "Valley.Menus" "ShopMenu").inAssembly "Valley"

/-- The tabs of such a menu, for goods of some type. -/
def tabsOf (goods : HostType) : HostType := .named "" "Tab`1" none (some menu) [goods]

/-- The tabs of menus with one method. -/
def tabsWith (goods : HostType) (method : String) : HostDefinition :=
  (HostDefinition.empty (tabsOf goods)).withMethod (.plain method .void)

/-- Menus, tabs, another type named as tabs are, and tabs once more. -/
def shopDefinitions : List HostDefinition :=
  [.empty menu, tabsWith .int32 "open", .empty (.simple "Valley.Menus" "Tab`1"), tabsWith .string "close"]

/-- The reference to the tabs of a menu, of another assembly. -/
def tabReference : TypeRef :=
  .named ⟨"", "Tab`1", some ⟨"Valley.Menus", "ShopMenu", none, [], some "Shops"⟩, [.placeholder ⟨.type, 0, none⟩], none⟩

theorem looks_up_by_identity_shop :
    let identity : TypeIdentity := ⟨"Valley.Menus", "Tab`1", ["ShopMenu"]⟩
    tabReference.KnownAs identity ∧ (∀ definition ∈ shopDefinitions, ∃ known, definition.type.KnownAs known) ∧
      (empty.registerAll shopDefinitions).2.find? tabReference = some (tabsWith .string "close") ∧
      (empty.registerAll shopDefinitions).2.size = 3 := by
  intro identity
  have knownAs : tabReference.KnownAs identity := ⟨by decide, by decide⟩
  have known : ∀ definition ∈ shopDefinitions, ∃ known, definition.type.KnownAs known := by
    simp only [shopDefinitions, List.forall_mem_cons, List.not_mem_nil, false_implies, implies_true, and_true]
    exact ⟨⟨⟨"Valley.Menus", "ShopMenu", []⟩, by decide, by decide⟩, ⟨identity, by decide, by decide⟩,
      ⟨⟨"Valley.Menus", "Tab`1", []⟩, by decide, by decide⟩, ⟨identity, by decide, by decide⟩⟩
  rcases looks_up_by_identity.2.2.2.2.2 shopDefinitions known with ⟨_, finds, size⟩
  refine ⟨knownAs, known, ?_, ?_⟩
  · rw [finds knownAs]
    decide
  · rw [size]
    decide

end Shop

end HostTable

end CilRelink
