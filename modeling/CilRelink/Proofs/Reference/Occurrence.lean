import CilRelink.Proofs.Reference.Resemblance

/-!
# Where placeholders occur

A placeholder may stand at any depth of a type: in its arguments, in the element or target of a shape, and in the types
that enclose it. The search for one goes into all of them but one: of the type around a type it looks at the arguments,
and not at what encloses that type in turn. So what it finds is there, and what it misses stands that far out. Types
that resemble each other without being the same have placeholders both, which are in sight in both or in neither.
-/

namespace CilRelink

/-- Whether a type occurs in another: as the type itself, or in the type around it, in an argument, in the element of
an array, or in the target of a reference or pointer. -/
inductive TypeRef.OccursIn (part : TypeRef) : TypeRef → Prop where
  | self : OccursIn part part
  | enclosing {type outer : NamedType} (around : type.enclosing = some outer) (inside : OccursIn part (.named outer)) :
      OccursIn part (.named type)
  | argument {type : NamedType} {argument : TypeRef} (argumentMem : argument ∈ type.arguments)
      (inside : OccursIn part argument) : OccursIn part (.named type)
  | element {element : TypeRef} {rank : Nat} (inside : OccursIn part element) : OccursIn part (.array element rank)
  | byRef {target : TypeRef} (inside : OccursIn part target) : OccursIn part (.byRef target)
  | pointer {target : TypeRef} (inside : OccursIn part target) : OccursIn part (.pointer target)

/-- Whether a placeholder is found without going outwards by more than one type at a time: what is around the type
around a type is out of sight. -/
inductive TypeRef.InSight (parameter : Placeholder) : TypeRef → Prop where
  | self : InSight parameter (.placeholder parameter)
  | outerArgument {type outer : NamedType} {argument : TypeRef} (around : type.enclosing = some outer)
      (argumentMem : argument ∈ outer.arguments) (inside : InSight parameter argument) :
      InSight parameter (.named type)
  | argument {type : NamedType} {argument : TypeRef} (argumentMem : argument ∈ type.arguments)
      (inside : InSight parameter argument) : InSight parameter (.named type)
  | element {element : TypeRef} {rank : Nat} (inside : InSight parameter element) :
      InSight parameter (.array element rank)
  | byRef {target : TypeRef} (inside : InSight parameter target) : InSight parameter (.byRef target)
  | pointer {target : TypeRef} (inside : InSight parameter target) : InSight parameter (.pointer target)

/-- Whether a placeholder occurs in what encloses the type around a type that occurs. -/
def TypeRef.FarOut (parameter : Placeholder) (type : TypeRef) : Prop :=
  ∃ part outer far : NamedType, (TypeRef.named part).OccursIn type ∧ part.enclosing = some outer ∧
    outer.enclosing = some far ∧ (TypeRef.placeholder parameter).OccursIn (.named far)

/-! ## Placeholders in order -/

section Order

variable {parameter : Placeholder}

mutual

/-- The placeholders in the order in which they stand are those that occur. -/
theorem TypeRef.mem_placeholders_iff : (type : TypeRef) →
    (parameter ∈ type.placeholders ↔ (TypeRef.placeholder parameter).OccursIn type)
  | .named type => NamedType.mem_placeholders_iff type
  | .placeholder other => by
    rw [TypeRef.placeholders, List.mem_singleton]
    exact ⟨fun same => same ▸ .self, fun | .self => rfl⟩
  | .array element _ => (TypeRef.mem_placeholders_iff element).trans ⟨.element, fun | .element inside => inside⟩
  | .byRef target => (TypeRef.mem_placeholders_iff target).trans ⟨.byRef, fun | .byRef inside => inside⟩
  | .pointer target => (TypeRef.mem_placeholders_iff target).trans ⟨.pointer, fun | .pointer inside => inside⟩

theorem NamedType.mem_placeholders_iff : (type : NamedType) →
    (parameter ∈ type.placeholders ↔ (TypeRef.placeholder parameter).OccursIn (.named type))
  | ⟨_, _, none, arguments, _⟩ => by
    rw [NamedType.placeholders, TypeRef.mem_placeholdersOfEach_iff arguments]
    constructor
    · exact fun ⟨_, argumentMem, inside⟩ => .argument argumentMem inside
    · intro occurs
      cases occurs with
      | enclosing around => cases around
      | argument argumentMem inside => exact ⟨_, argumentMem, inside⟩
  | ⟨_, _, some outer, arguments, _⟩ => by
    rw [NamedType.placeholders, List.mem_append, NamedType.mem_placeholders_iff outer,
      TypeRef.mem_placeholdersOfEach_iff arguments]
    constructor
    · rintro (inside | ⟨argument, argumentMem, inside⟩)
      · exact .enclosing rfl inside
      · exact .argument argumentMem inside
    · intro occurs
      cases occurs with
      | enclosing around inside =>
          cases around
          exact .inl inside
      | argument argumentMem inside => exact .inr ⟨_, argumentMem, inside⟩

theorem TypeRef.mem_placeholdersOfEach_iff : (types : List TypeRef) →
    (parameter ∈ TypeRef.placeholdersOfEach types ↔
      ∃ type ∈ types, (TypeRef.placeholder parameter).OccursIn type)
  | [] => by simp [TypeRef.placeholdersOfEach]
  | type :: types => by
    simp only [TypeRef.placeholdersOfEach, List.mem_append, List.mem_cons, exists_eq_or_imp,
      TypeRef.mem_placeholders_iff type, TypeRef.mem_placeholdersOfEach_iff types]

end

end Order

/-! ## What the search finds -/

mutual

/-- A placeholder is found exactly if one is in sight. -/
theorem TypeRef.mentionsPlaceholder_iff : (type : TypeRef) →
    (type.mentionsPlaceholder = true ↔ ∃ parameter, TypeRef.InSight parameter type)
  | .named ⟨_, _, none, arguments, _⟩ => by
    rw [TypeRef.mentionsPlaceholder, TypeRef.anyMentionsPlaceholder_iff arguments]
    constructor
    · exact fun ⟨_, argumentMem, parameter, inside⟩ => ⟨parameter, .argument argumentMem inside⟩
    · rintro ⟨parameter, inSight⟩
      cases inSight with
      | outerArgument around => cases around
      | argument argumentMem inside => exact ⟨_, argumentMem, parameter, inside⟩
  | .named ⟨_, _, some ⟨_, _, _, outerArguments, _⟩, arguments, _⟩ => by
    rw [TypeRef.mentionsPlaceholder, Bool.or_eq_true, TypeRef.anyMentionsPlaceholder_iff arguments,
      TypeRef.anyMentionsPlaceholder_iff outerArguments]
    constructor
    · rintro (⟨_, argumentMem, parameter, inside⟩ | ⟨_, argumentMem, parameter, inside⟩)
      · exact ⟨parameter, .argument argumentMem inside⟩
      · exact ⟨parameter, .outerArgument rfl argumentMem inside⟩
    · rintro ⟨parameter, inSight⟩
      cases inSight with
      | outerArgument around argumentMem inside =>
          cases around
          exact .inr ⟨_, argumentMem, parameter, inside⟩
      | argument argumentMem inside => exact .inl ⟨_, argumentMem, parameter, inside⟩
  | .placeholder parameter => by
    simp only [TypeRef.mentionsPlaceholder, true_iff]
    exact ⟨parameter, .self⟩
  | .array element _ =>
    (TypeRef.mentionsPlaceholder_iff element).trans (exists_congr fun _ => ⟨.element, fun | .element inside => inside⟩)
  | .byRef target =>
    (TypeRef.mentionsPlaceholder_iff target).trans (exists_congr fun _ => ⟨.byRef, fun | .byRef inside => inside⟩)
  | .pointer target =>
    (TypeRef.mentionsPlaceholder_iff target).trans (exists_congr fun _ => ⟨.pointer, fun | .pointer inside => inside⟩)

theorem TypeRef.anyMentionsPlaceholder_iff : (types : List TypeRef) →
    (TypeRef.anyMentionsPlaceholder types = true ↔ ∃ type ∈ types, ∃ parameter, TypeRef.InSight parameter type)
  | [] => by simp [TypeRef.anyMentionsPlaceholder]
  | type :: types => by
    simp only [TypeRef.anyMentionsPlaceholder, Bool.or_eq_true, List.mem_cons, exists_eq_or_imp,
      TypeRef.mentionsPlaceholder_iff type, TypeRef.anyMentionsPlaceholder_iff types]

end

mutual

/-- Whether one is found can be told by the skeleton. -/
theorem TypeRef.mentionsPlaceholder_skeleton : (type : TypeRef) →
    type.skeleton.mentionsPlaceholder = type.mentionsPlaceholder
  | .named ⟨_, _, none, arguments, _⟩ => TypeRef.anyMentionsPlaceholder_skeleton arguments
  | .named ⟨_, _, some ⟨_, _, none, outerArguments, _⟩, arguments, _⟩ => by
    simp only [TypeRef.skeleton, NamedType.skeleton, TypeRef.mentionsPlaceholder,
      TypeRef.anyMentionsPlaceholder_skeleton arguments, TypeRef.anyMentionsPlaceholder_skeleton outerArguments]
  | .named ⟨_, _, some ⟨_, _, some _, outerArguments, _⟩, arguments, _⟩ => by
    simp only [TypeRef.skeleton, NamedType.skeleton, TypeRef.mentionsPlaceholder,
      TypeRef.anyMentionsPlaceholder_skeleton arguments, TypeRef.anyMentionsPlaceholder_skeleton outerArguments]
  | .placeholder _ => rfl
  | .array element _ => TypeRef.mentionsPlaceholder_skeleton element
  | .byRef target => TypeRef.mentionsPlaceholder_skeleton target
  | .pointer target => TypeRef.mentionsPlaceholder_skeleton target

theorem TypeRef.anyMentionsPlaceholder_skeleton : (types : List TypeRef) →
    TypeRef.anyMentionsPlaceholder (TypeRef.skeletonOfEach types) = TypeRef.anyMentionsPlaceholder types
  | [] => rfl
  | type :: types => by
    simp only [TypeRef.skeletonOfEach, TypeRef.anyMentionsPlaceholder, TypeRef.mentionsPlaceholder_skeleton type,
      TypeRef.anyMentionsPlaceholder_skeleton types]

end

namespace TypeRef

variable {type left right part inner : TypeRef} {parameter : Placeholder}

theorem OccursIn.trans (occurs : part.OccursIn inner) (inside : inner.OccursIn type) : part.OccursIn type := by
  induction inside with
  | self => exact occurs
  | enclosing around _ ih => exact .enclosing around ih
  | argument argumentMem _ ih => exact .argument argumentMem ih
  | element _ ih => exact .element ih
  | byRef _ ih => exact .byRef ih
  | pointer _ ih => exact .pointer ih

/-- What is in sight is there. -/
theorem InSight.occursIn (inSight : InSight parameter type) : (TypeRef.placeholder parameter).OccursIn type := by
  induction inSight with
  | self => exact .self
  | outerArgument around argumentMem _ ih => exact .enclosing around (.argument argumentMem ih)
  | argument argumentMem _ ih => exact .argument argumentMem ih
  | element _ ih => exact .element ih
  | byRef _ ih => exact .byRef ih
  | pointer _ ih => exact .pointer ih

theorem FarOut.occursIn (farOut : FarOut parameter type) : (TypeRef.placeholder parameter).OccursIn type := by
  rcases farOut with ⟨part, outer, far, partOccurs, around, farther, inside⟩
  exact OccursIn.trans (.enclosing around (.enclosing farther inside)) partOccurs

theorem FarOut.of_occursIn (farOut : FarOut parameter inner) (inside : inner.OccursIn type) :
    FarOut parameter type := by
  rcases farOut with ⟨part, outer, far, partOccurs, rest⟩
  exact ⟨part, outer, far, partOccurs.trans inside, rest⟩

/-- What is there is in sight or far out. -/
theorem OccursIn.inSight_or_farOut (occurs : (TypeRef.placeholder parameter).OccursIn type) :
    InSight parameter type ∨ FarOut parameter type := by
  induction occurs with
  | self => exact .inl .self
  | @enclosing type outer around inside ih =>
      rcases ih with inSight | farOut
      -- What is seen of the type around it may have been seen one type farther out, which is too far from here.
      · cases inSight with
        | outerArgument farther argumentMem inArgument =>
            exact .inr ⟨type, outer, _, .self, around, farther, .argument argumentMem inArgument.occursIn⟩
        | argument argumentMem inArgument => exact .inl (.outerArgument around argumentMem inArgument)
      · exact .inr (farOut.of_occursIn (.enclosing around .self))
  | argument argumentMem _ ih => exact ih.imp (.argument argumentMem) (·.of_occursIn (.argument argumentMem .self))
  | element _ ih => exact ih.imp .element (·.of_occursIn (.element .self))
  | byRef _ ih => exact ih.imp .byRef (·.of_occursIn (.byRef .self))
  | pointer _ ih => exact ih.imp .pointer (·.of_occursIn (.pointer .self))

theorem occursIn_iff :
    (TypeRef.placeholder parameter).OccursIn type ↔ InSight parameter type ∨ FarOut parameter type :=
  ⟨OccursIn.inSight_or_farOut, fun cases => cases.elim InSight.occursIn FarOut.occursIn⟩

/-! ## Types that merely resemble each other -/

theorem exists_occursIn_of_ne_nil (found : type.placeholders ≠ []) :
    ∃ parameter, (TypeRef.placeholder parameter).OccursIn type := by
  rcases List.exists_mem_of_ne_nil _ found with ⟨parameter, parameterMem⟩
  exact ⟨parameter, (mem_placeholders_iff type).mp parameterMem⟩

theorem compare_eq_heuristic_iff :
    left.compare right = some .heuristic ↔ left.denotesSame right = false ∧ left.resembles right = true := by
  unfold compare
  cases left.denotesSame right <;> cases left.resembles right <;> simp

theorem exists_occursIn_iff :
    (∃ parameter, (TypeRef.placeholder parameter).OccursIn type) ↔
      (∃ parameter, InSight parameter type) ∨ ∃ parameter, FarOut parameter type := by
  simp only [occursIn_iff, exists_or]

/-- The search is right about a type exactly if something is in sight or nothing is far out. -/
theorem mentionsPlaceholder_right_iff :
    (type.mentionsPlaceholder = true ↔ ∃ parameter, (TypeRef.placeholder parameter).OccursIn type) ↔
      (∃ parameter, InSight parameter type) ∨ ¬ ∃ parameter, FarOut parameter type := by
  rw [mentionsPlaceholder_iff, exists_occursIn_iff]
  by_cases found : ∃ parameter, InSight parameter type
  · simp only [found, true_or, iff_self]
  · simp only [found, false_or, false_iff]

theorem exists_occursIn_of_heuristic (merely : left.compare right = some .heuristic) :
    (∃ parameter, (TypeRef.placeholder parameter).OccursIn left) ∧
      ∃ parameter, (TypeRef.placeholder parameter).OccursIn right := by
  rcases compare_eq_heuristic_iff.mp merely with ⟨differ, alike⟩
  have notClosed (closed : left.placeholders = [] ∨ right.placeholders = []) : False := by
    rw [denotesSame_of_resembles alike closed] at differ
    cases differ
  exact ⟨exists_occursIn_of_ne_nil fun none => notClosed (.inl none),
    exists_occursIn_of_ne_nil fun none => notClosed (.inr none)⟩

theorem mentionsPlaceholder_eq_of_resembles (alike : left.resembles right = true) :
    left.mentionsPlaceholder = right.mentionsPlaceholder := by
  rw [← mentionsPlaceholder_skeleton left, (resembles_iff.mp alike).1, mentionsPlaceholder_skeleton right]

/-- The search for a placeholder finds one exactly if one is in sight, and what occurs without being in sight stands in
what encloses the type around a type. So the search is right about a type exactly if something is in sight or nothing
is that far out. Types that merely resemble each other have placeholders both, and these are found exactly if they are
in sight. -/
theorem placeholders_found_unless_far (left right : TypeRef) :
    (left.mentionsPlaceholder = true ↔ ∃ parameter, InSight parameter left) ∧
    (∀ parameter, (TypeRef.placeholder parameter).OccursIn left ↔ InSight parameter left ∨ FarOut parameter left) ∧
    ((left.mentionsPlaceholder = true ↔ ∃ parameter, (TypeRef.placeholder parameter).OccursIn left) ↔
      (∃ parameter, InSight parameter left) ∨ ¬ ∃ parameter, FarOut parameter left) ∧
    (left.compare right = some .heuristic →
      (∃ parameter, (TypeRef.placeholder parameter).OccursIn left) ∧
        (∃ parameter, (TypeRef.placeholder parameter).OccursIn right) ∧
        (left.mentionsPlaceholder = true ∧ right.mentionsPlaceholder = true ↔
          ∃ parameter, InSight parameter left)) := by
  refine ⟨mentionsPlaceholder_iff left, fun _ => occursIn_iff, mentionsPlaceholder_right_iff, ?_⟩
  intro merely
  rcases exists_occursIn_of_heuristic merely with ⟨occursLeft, occursRight⟩
  refine ⟨occursLeft, occursRight, ?_⟩
  rw [← mentionsPlaceholder_eq_of_resembles (compare_eq_heuristic_iff.mp merely).2, and_self]
  exact mentionsPlaceholder_iff left

section Shelves

/-- The rows of a shelf that holds things of a type. -/
def rowOf (content : TypeRef) : NamedType := ⟨"", "Row", some ⟨"Storage", "Shelf`1", none, [content], none⟩, [], none⟩

/-- The slots of these rows. -/
def slotOf (content : TypeRef) : TypeRef := .named ⟨"", "Slot", some (rowOf content), [], none⟩

/-- The slots of a shelf with a placeholder merely resemble those with another, yet no placeholder is found in them. -/
theorem placeholder_out_of_sight :
    (atPosition 0).OccursIn (slotOf (atPosition 0)) ∧ (slotOf (atPosition 0)).mentionsPlaceholder = false ∧
      (slotOf (atPosition 0)).compare (slotOf (declaredAs "T" 0)) = some .heuristic ∧
      (slotOf (declaredAs "T" 0)).mentionsPlaceholder = false :=
  ⟨.enclosing rfl (.enclosing rfl (.argument List.mem_cons_self .self)), by decide⟩

theorem placeholders_found_unless_far_rows :
    let row := TypeRef.named (rowOf (atPosition 0))
    let declared := TypeRef.named (rowOf (declaredAs "T" 0))
    row.compare declared = some .heuristic ∧ (∃ parameter, InSight parameter row) ∧
      (∃ parameter, (TypeRef.placeholder parameter).OccursIn row) ∧
      (∃ parameter, (TypeRef.placeholder parameter).OccursIn declared) ∧
      row.mentionsPlaceholder = true ∧ declared.mentionsPlaceholder = true := by
  intro row declared
  have merely : row.compare declared = some .heuristic := by decide
  have inSight : ∃ parameter, InSight parameter row := ⟨_, .outerArgument rfl List.mem_cons_self .self⟩
  rcases (placeholders_found_unless_far row declared).2.2.2 merely with ⟨occurs, occursDeclared, found⟩
  exact ⟨merely, inSight, occurs, occursDeclared, found.mpr inSight⟩

end Shelves

end TypeRef

end CilRelink
