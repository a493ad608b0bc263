import CilRelink.Proofs.Rule.Breakage

/-!
# Mapping all types in a type

The map of types replaces at the same time all types that a type mentions and that are mapped: the type itself, those
in its arguments, and those in the element of an array or the target of a reference or pointer. An image takes over the
arguments of what it replaces, with the types in them replaced, too. What a type is enclosed in is no such place, so a
type inside one that is mapped stays where it was. Where nothing that encloses another type is mapped, this is all there
is to replace.
-/

namespace CilRelink

namespace Redirections

/-- Maps types, one after the other. -/
def mapTypes (redirections : Redirections) (entries : List (TypeRef × TypeRef)) : Redirections :=
  entries.foldl (fun mapped entry => mapped.mapType entry.1 entry.2) redirections

/-- Of the entries for a definition name the last counts. -/
theorem find?_types_mapTypes (redirections : Redirections) (entries : List (TypeRef × TypeRef)) (key : String) :
    (redirections.mapTypes entries).types.find? key =
      ((entries.reverse.find? (·.1.definitionName = some key)).map Prod.snd).or (redirections.types.find? key) := by
  induction entries generalizing redirections with
  | nil => rfl
  | cons entry entries ih =>
      have next : redirections.mapTypes (entry :: entries) =
          (redirections.mapType entry.1 entry.2).mapTypes entries := rfl
      have first : (redirections.mapType entry.1 entry.2).types.find? key =
          if entry.1.definitionName = some key then some entry.2 else redirections.types.find? key := by
        unfold mapType
        cases names : entry.1.definitionName with
        | none => simp
        | some other => simp only [Dictionary.find?_insert, Option.some.injEq, eq_comm]
      rw [next, ih, first, List.reverse_cons, List.find?_append]
      cases entries.reverse.find? (·.1.definitionName = some key) with
      | some later => simp
      | none => by_cases same : entry.1.definitionName = some key <;> simp [same]

end Redirections

/-- Whether a named type stands in the map. -/
def NamedType.IsMapped (types : Dictionary String TypeRef) (type : NamedType) : Prop :=
  (types.find? type.definitionName).isSome = true

/-- What takes the place of a type that had arguments, or had none. -/
def TypeRef.takingOver (arguments : List TypeRef) (image : TypeRef) : TypeRef :=
  if arguments.isEmpty then image else image.withArguments arguments

/-- The type if it can enclose others, or else the one given. -/
def TypeRef.enclosingOr (other : NamedType) : TypeRef → NamedType
  | .named type => type
  | _ => other

mutual

/-- The type with all mapped types in it replaced at the same time. `outwards` tells whether to replace them also in
what encloses a type. -/
def TypeRef.substitute (types : Dictionary String TypeRef) (outwards : Bool) : TypeRef → TypeRef
  | .named type => NamedType.substitute types outwards type
  | .placeholder parameter => .placeholder parameter
  | .array element rank => .array (TypeRef.substitute types outwards element) rank
  | .byRef target => .byRef (TypeRef.substitute types outwards target)
  | .pointer target => .pointer (TypeRef.substitute types outwards target)

/-- The named type with all mapped types in it replaced, itself included. -/
def NamedType.substitute (types : Dictionary String TypeRef) (outwards : Bool) : NamedType → TypeRef
  | ⟨dotted, name, enclosing, arguments, assembly⟩ =>
    let replaced := TypeRef.substituteEach types outwards arguments
    match types.find? (NamedType.definitionName ⟨dotted, name, enclosing, arguments, assembly⟩) with
    | some image => image.takingOver replaced
    | none => .named ⟨dotted, name, NamedType.substituteAround types outwards enclosing, replaced, assembly⟩

/-- What encloses a type, with all mapped types in it replaced if `outwards` tells so and the image can enclose a
type. -/
def NamedType.substituteAround (types : Dictionary String TypeRef) (outwards : Bool) :
    Option NamedType → Option NamedType
  | none => none
  | some outer => if outwards then some ((NamedType.substitute types outwards outer).enclosingOr outer) else some outer

/-- The types with all mapped types in them replaced. -/
def TypeRef.substituteEach (types : Dictionary String TypeRef) (outwards : Bool) : List TypeRef → List TypeRef
  | [] => []
  | type :: rest => TypeRef.substitute types outwards type :: TypeRef.substituteEach types outwards rest

end

/-- Whether a named type occurs in a type: as the type itself, in what encloses it, in an argument, or in the element of
an array or the target of a reference or pointer. -/
inductive TypeRef.Occurs (part : NamedType) : TypeRef → Prop where
  | self : Occurs part (.named part)
  | enclosing {type outer : NamedType} (around : type.enclosing = some outer) (inside : Occurs part (.named outer)) :
      Occurs part (.named type)
  | argument {type : NamedType} {argument : TypeRef} (argumentMem : argument ∈ type.arguments)
      (inside : Occurs part argument) : Occurs part (.named type)
  | element {element : TypeRef} {rank : Nat} (inside : Occurs part element) : Occurs part (.array element rank)
  | byRef {target : TypeRef} (inside : Occurs part target) : Occurs part (.byRef target)
  | pointer {target : TypeRef} (inside : Occurs part target) : Occurs part (.pointer target)

/-- Whether a mapped type occurs in what encloses a type that is mentioned, but not mapped itself. -/
def TypeRef.EnclosesMapped (types : Dictionary String TypeRef) (type : TypeRef) : Prop :=
  ∃ mentioned outer part, type.Mentions mentioned ∧ ¬ mentioned.IsMapped types ∧ mentioned.enclosing = some outer ∧
    (TypeRef.named outer).Occurs part ∧ part.IsMapped types

section Substitution

variable {types : Dictionary String TypeRef} {type : TypeRef}

theorem NamedType.not_isMapped_iff {type : NamedType} :
    ¬ type.IsMapped types ↔ types.find? type.definitionName = none := by
  rw [IsMapped, Option.isSome_iff_ne_none, not_not]

@[simp]
theorem NamedType.substituteAround_false (enclosing : Option NamedType) :
    NamedType.substituteAround types false enclosing = enclosing := by
  cases enclosing <;> rfl

theorem TypeRef.EnclosesMapped.of_mentions {inner : TypeRef} (encloses : inner.EnclosesMapped types)
    (lift : ∀ {mentioned}, inner.Mentions mentioned → type.Mentions mentioned) : type.EnclosesMapped types := by
  rcases encloses with ⟨mentioned, outer, part, mention, inside⟩
  exact ⟨mentioned, outer, part, lift mention, inside⟩

theorem TypeRef.Mentions.occurs {part : NamedType} (mention : type.Mentions part) : type.Occurs part := by
  induction mention with
  | self => exact .self
  | argument argumentMem _ ih => exact .argument argumentMem ih
  | element _ ih => exact .element ih
  | byRef _ ih => exact .byRef ih
  | pointer _ ih => exact .pointer ih

theorem TypeRef.substituteEach_eq_map (outwards : Bool) (list : List TypeRef) :
    TypeRef.substituteEach types outwards list = list.map (·.substitute types outwards) := by
  induction list with
  | nil => rfl
  | cons type list ih => rw [substituteEach, List.map_cons, ih]

/-! ## The map replaces what is mentioned -/

mutual

/-- Nothing becomes of a type exactly if no mapped type is mentioned in it. -/
theorem TypeRef.redirect_eq_none_iff : (type : TypeRef) →
    (type.redirect types = none ↔ ∀ mentioned, type.Mentions mentioned → ¬ mentioned.IsMapped types)
  | .named ⟨dotted, name, enclosing, arguments, assembly⟩ => by
    have inside := TypeRef.redirectEach_eq_none_iff arguments
    simp only [redirect]
    cases image : types.find? (NamedType.definitionName ⟨dotted, name, enclosing, arguments, assembly⟩) with
    | some target =>
        simp only [reduceCtorEq, false_iff]
        exact fun all => all _ .self (by rw [NamedType.IsMapped, image, Option.isSome_some])
    | none =>
        cases each : TypeRef.redirectEach types arguments with
        | none =>
            simp only [true_iff]
            rw [each, eq_self, true_iff] at inside
            intro mentioned mention
            cases mention with
            | self => exact NamedType.not_isMapped_iff.mpr image
            | argument argumentMem inArgument => exact inside _ argumentMem mentioned inArgument
        | some changed =>
            rw [each] at inside
            simp only [reduceCtorEq, false_iff] at inside ⊢
            exact fun all => inside fun argument argumentMem mentioned inArgument =>
              all mentioned (.argument argumentMem inArgument)
  | .placeholder _ => by
    simp only [redirect, true_iff]
    exact fun _ mention => nomatch mention
  | .array element _ => by
    rw [redirect, Option.map_eq_none_iff, TypeRef.redirect_eq_none_iff element]
    exact forall_congr' fun _ => imp_congr_left ⟨.element, fun | .element inside => inside⟩
  | .byRef target => by
    rw [redirect, Option.map_eq_none_iff, TypeRef.redirect_eq_none_iff target]
    exact forall_congr' fun _ => imp_congr_left ⟨.byRef, fun | .byRef inside => inside⟩
  | .pointer target => by
    rw [redirect, Option.map_eq_none_iff, TypeRef.redirect_eq_none_iff target]
    exact forall_congr' fun _ => imp_congr_left ⟨.pointer, fun | .pointer inside => inside⟩

theorem TypeRef.redirectEach_eq_none_iff : (list : List TypeRef) →
    (TypeRef.redirectEach types list = none ↔
      ∀ type ∈ list, ∀ mentioned, type.Mentions mentioned → ¬ mentioned.IsMapped types)
  | [] => by simp only [redirectEach, List.not_mem_nil, false_implies, implies_true]
  | type :: list => by
    rw [List.forall_mem_cons, ← TypeRef.redirect_eq_none_iff type, ← TypeRef.redirectEach_eq_none_iff list,
      redirectEach]
    cases type.redirect types <;> cases TypeRef.redirectEach types list <;> simp

end

mutual

/-- What becomes of a type, or else the type itself, is the type with all mapped types replaced that it mentions. -/
theorem TypeRef.getD_redirect : (type : TypeRef) → (type.redirect types).getD type = type.substitute types false
  | .named ⟨dotted, name, enclosing, arguments, assembly⟩ => by
    have inside := TypeRef.getD_redirectEach arguments
    have noFewer : (TypeRef.substituteEach types false arguments).isEmpty = arguments.isEmpty := by
      rw [TypeRef.substituteEach_eq_map, List.isEmpty_map]
    simp only [redirect, substitute, NamedType.substitute, NamedType.substituteAround_false, takingOver, noFewer]
    rw [← inside]
    generalize types.find? (NamedType.definitionName ⟨dotted, name, enclosing, arguments, assembly⟩) = image
    cases arguments with
    | nil => cases image <;> rfl
    | cons argument arguments =>
        cases TypeRef.redirectEach types (argument :: arguments) <;> cases image <;> rfl
  | .placeholder _ => rfl
  | .array element _ => by
    rw [redirect, substitute, ← TypeRef.getD_redirect element]
    cases element.redirect types <;> rfl
  | .byRef target => by
    rw [redirect, substitute, ← TypeRef.getD_redirect target]
    cases target.redirect types <;> rfl
  | .pointer target => by
    rw [redirect, substitute, ← TypeRef.getD_redirect target]
    cases target.redirect types <;> rfl

theorem TypeRef.getD_redirectEach : (list : List TypeRef) →
    (TypeRef.redirectEach types list).getD list = TypeRef.substituteEach types false list
  | [] => rfl
  | type :: list => by
    rw [redirectEach, substituteEach, ← TypeRef.getD_redirect type, ← TypeRef.getD_redirectEach list]
    cases type.redirect types <;> cases TypeRef.redirectEach types list <;> rfl

end

/-! ## Where nothing mapped encloses another type -/

mutual

/-- Where no mapped type occurs there is nothing to replace. -/
theorem TypeRef.substitute_eq_self (outwards : Bool) : (type : TypeRef) →
    (∀ part, type.Occurs part → ¬ part.IsMapped types) → type.substitute types outwards = type
  | .named type, unmapped => NamedType.substitute_eq_self outwards type unmapped
  | .placeholder _, _ => rfl
  | .array element _, unmapped => by
    rw [TypeRef.substitute,
      TypeRef.substitute_eq_self outwards element fun part inside => unmapped part (.element inside)]
  | .byRef target, unmapped => by
    rw [TypeRef.substitute, TypeRef.substitute_eq_self outwards target fun part inside => unmapped part (.byRef inside)]
  | .pointer target, unmapped => by
    rw [TypeRef.substitute,
      TypeRef.substitute_eq_self outwards target fun part inside => unmapped part (.pointer inside)]

theorem NamedType.substitute_eq_self (outwards : Bool) : (type : NamedType) →
    (∀ part, (TypeRef.named type).Occurs part → ¬ part.IsMapped types) →
      type.substitute types outwards = .named type
  | ⟨dotted, name, enclosing, arguments, assembly⟩, unmapped => by
    have itself := NamedType.not_isMapped_iff.mp (unmapped _ .self)
    have inside : TypeRef.substituteEach types outwards arguments = arguments :=
      TypeRef.substituteEach_eq_self outwards arguments fun argument argumentMem part inArgument =>
        unmapped part (.argument argumentMem inArgument)
    have around : NamedType.substituteAround types outwards enclosing = enclosing := by
      cases enclosing with
      | none => rfl
      | some outer =>
          have whole := NamedType.substitute_eq_self outwards outer fun part inOuter =>
            unmapped part (.enclosing rfl inOuter)
          simp only [NamedType.substituteAround, whole, TypeRef.enclosingOr, ite_self]
    simp only [NamedType.substitute, itself, inside, around]

theorem TypeRef.substituteEach_eq_self (outwards : Bool) : (list : List TypeRef) →
    (∀ type ∈ list, ∀ part, type.Occurs part → ¬ part.IsMapped types) →
      TypeRef.substituteEach types outwards list = list
  | [], _ => rfl
  | type :: list, unmapped => by
    rw [List.forall_mem_cons] at unmapped
    rw [TypeRef.substituteEach, TypeRef.substitute_eq_self outwards type unmapped.1,
      TypeRef.substituteEach_eq_self outwards list unmapped.2]

end

mutual

/-- Where no mapped type occurs in what encloses others, it makes no difference whether to replace them there. -/
theorem TypeRef.substitute_outwards_eq : (type : TypeRef) → ¬ type.EnclosesMapped types →
    type.substitute types true = type.substitute types false
  | .named ⟨dotted, name, enclosing, arguments, assembly⟩, free => by
    have inside : TypeRef.substituteEach types true arguments = TypeRef.substituteEach types false arguments :=
      TypeRef.substituteEach_outwards_eq arguments fun _ argumentMem encloses =>
        free (encloses.of_mentions (.argument argumentMem))
    simp only [substitute, NamedType.substitute, inside]
    cases image : types.find? (NamedType.definitionName ⟨dotted, name, enclosing, arguments, assembly⟩) with
    | some target => rfl
    | none =>
        have around : NamedType.substituteAround types true enclosing = enclosing := by
          cases enclosing with
          | none => rfl
          | some outer =>
              -- the type stays, so nothing in what encloses it is mapped
              have whole := NamedType.substitute_eq_self true outer fun part inOuter mapped =>
                free ⟨_, outer, part, .self, NamedType.not_isMapped_iff.mpr image, rfl, inOuter, mapped⟩
              simp only [NamedType.substituteAround, whole, enclosingOr, if_true]
        simp only [around, NamedType.substituteAround_false]
  | .placeholder _, _ => rfl
  | .array element _, free => by
    rw [substitute, substitute,
      TypeRef.substitute_outwards_eq element fun encloses => free (encloses.of_mentions .element)]
  | .byRef target, free => by
    rw [substitute, substitute,
      TypeRef.substitute_outwards_eq target fun encloses => free (encloses.of_mentions .byRef)]
  | .pointer target, free => by
    rw [substitute, substitute,
      TypeRef.substitute_outwards_eq target fun encloses => free (encloses.of_mentions .pointer)]

theorem TypeRef.substituteEach_outwards_eq : (list : List TypeRef) →
    (∀ type ∈ list, ¬ type.EnclosesMapped types) →
      TypeRef.substituteEach types true list = TypeRef.substituteEach types false list
  | [], _ => rfl
  | type :: list, free => by
    rw [List.forall_mem_cons] at free
    rw [substituteEach, substituteEach, TypeRef.substitute_outwards_eq type free.1,
      TypeRef.substituteEach_outwards_eq list free.2]

end

/-- A mapped type that occurs in a type is mentioned, or occurs in what encloses a type that is. -/
theorem TypeRef.Occurs.mentions_or {part : NamedType} (occurs : type.Occurs part) :
    type.Mentions part ∨ ∃ mentioned outer, type.Mentions mentioned ∧ mentioned.enclosing = some outer ∧
      (TypeRef.named outer).Occurs part := by
  have lifted {inner outside : TypeRef} (lift : ∀ {mentioned}, inner.Mentions mentioned → outside.Mentions mentioned)
      (cases : inner.Mentions part ∨ ∃ mentioned outer, inner.Mentions mentioned ∧ mentioned.enclosing = some outer ∧
        (TypeRef.named outer).Occurs part) :
      outside.Mentions part ∨ ∃ mentioned outer, outside.Mentions mentioned ∧ mentioned.enclosing = some outer ∧
        (TypeRef.named outer).Occurs part := by
    rcases cases with mention | ⟨mentioned, outer, mention, around, inside⟩
    · exact .inl (lift mention)
    · exact .inr ⟨mentioned, outer, lift mention, around, inside⟩
  induction occurs with
  | self => exact .inl .self
  | enclosing around inside _ => exact .inr ⟨_, _, .self, around, inside⟩
  | argument argumentMem _ ih => exact lifted (.argument argumentMem) ih
  | element _ ih => exact lifted .element ih
  | byRef _ ih => exact lifted .byRef ih
  | pointer _ ih => exact lifted .pointer ih

end Substitution

namespace Redirections

/-- Of the entries of the map for one definition name the last counts. What becomes of a type is the type with all
mapped types replaced that it mentions, and nothing becomes of it exactly if there are none. Types that enclose others
are not mentioned; where nothing is mapped that occurs in them, all mapped types are replaced wherever they occur, and
nothing becomes of the type exactly if none occurs. -/
theorem redirect_substitutes (entries : List (TypeRef × TypeRef)) (type : TypeRef) :
    let types := (empty.mapTypes entries).types
    (∀ key, types.find? key = (entries.reverse.find? (·.1.definitionName = some key)).map Prod.snd) ∧
      (type.redirect types).getD type = type.substitute types false ∧
      (type.redirect types = none ↔ ∀ mentioned, type.Mentions mentioned → ¬ mentioned.IsMapped types) ∧
      (¬ type.EnclosesMapped types →
        (type.redirect types).getD type = type.substitute types true ∧
          (type.redirect types = none ↔ ∀ part, type.Occurs part → ¬ part.IsMapped types)) := by
  intro types
  refine ⟨fun key => ?_, type.getD_redirect, type.redirect_eq_none_iff, fun free => ⟨?_, ?_⟩⟩
  · simp only [types, find?_types_mapTypes, empty, Dictionary.find?_empty, Option.or_none]
  · rw [type.getD_redirect, type.substitute_outwards_eq free]
  · rw [type.redirect_eq_none_iff]
    constructor
    · intro unmapped part occurs mapped
      rcases occurs.mentions_or with mention | ⟨mentioned, outer, mention, around, inside⟩
      · exact unmapped part mention mapped
      · exact free ⟨mentioned, outer, part, mention, unmapped mentioned mention, around, inside, mapped⟩
    · exact fun unmapped mentioned mention => unmapped mentioned mention.occurs

section Menus

/-- A menu of the game. -/
def menu (name : String) : NamedType := ⟨"StardewValley.Menus", name, none, [], none⟩

/-- A tab of a menu. -/
def tabOf (menu : NamedType) : NamedType := ⟨"", "Tab", some menu, [], none⟩

/-- A type of the game. -/
def gameType (name : String) : TypeRef := .simple "StardewValley" name

/-- Tables that lead from values of a type to the tabs of a shop. -/
def tabsBy (type : TypeRef) : TypeRef :=
  .named ⟨"System.Collections.Generic", "Dictionary", none, [type, .array (.named (tabOf (menu "ShopMenu"))) 1], none⟩

/-- A shop has become a store, but the tabs of shops stay where they were: they are not mentioned as something else,
even though a type that is mapped occurs in them. -/
theorem redirect_leaves_enclosing :
    let types := (empty.mapTypes [(.named (menu "ShopMenu"), .named (menu "StoreMenu"))]).types
    let tab := TypeRef.named (tabOf (menu "ShopMenu"))
    tab.Occurs (menu "ShopMenu") ∧ (menu "ShopMenu").IsMapped types ∧ tab.redirect types = none ∧
      tab.substitute types true = .named (tabOf (menu "StoreMenu")) ∧
      (tab.redirect types).getD tab ≠ tab.substitute types true := by
  refine ⟨.enclosing rfl .self, ?_⟩
  unfold NamedType.IsMapped
  decide +kernel

theorem redirect_substitutes_tabsBy :
    let types := (empty.mapTypes [(gameType "Object", gameType "Ware"), (gameType "Object", gameType "Item")]).types
    ¬ (tabsBy (gameType "Object")).EnclosesMapped types ∧
      (tabsBy (gameType "Object")).redirect types = some (tabsBy (gameType "Item")) ∧
      ((tabsBy (gameType "Object")).redirect types).getD (tabsBy (gameType "Object")) =
        (tabsBy (gameType "Object")).substitute types true := by
  intro types
  have free : ¬ (tabsBy (gameType "Object")).EnclosesMapped types := by
    have shopStays : ¬ (menu "ShopMenu").IsMapped types := by
      rw [NamedType.not_isMapped_iff]
      decide +kernel
    rintro ⟨mentioned, outer, part, mention, _, around, inside, mapped⟩
    -- of the types mentioned only the tab is enclosed in another
    cases mention with
    | self => cases around
    | argument argumentMem mention =>
        simp only [List.mem_cons, List.not_mem_nil, or_false] at argumentMem
        rcases argumentMem with rfl | rfl
        · cases mention with
          | self => cases around
          | argument noArgument => cases noArgument
        · cases mention with
          | element mention =>
              cases mention with
              | self =>
                  cases around
                  cases inside with
                  | self => exact shopStays mapped
                  | enclosing noEnclosing => cases noEnclosing
                  | argument noArgument => cases noArgument
              | argument noArgument => cases noArgument
  exact ⟨free, by decide +kernel, ((redirect_substitutes _ _).2.2.2 free).1⟩

end Menus

end Redirections

end CilRelink
