import CilRelink.Proofs.Reference.Identity

/-!
# What a definition name tells

Tables keep types under their definition names, which are put together from a namespace and simple names. What goes
into the name of a type is its identity: the namespace of the outermost type around it, its own simple name, and those
of the types on the way out. Arguments and assemblies do not go into it. The name tells the identity if the simple
names hold neither a dot nor a slash and the namespace holds no slash: the last slash is then the one in front of the
type's own name, and where there is no slash, the last dot is the one behind the namespace.
-/

namespace CilRelink

/-- What a named type is known by: the namespace of the outermost type around it, its own simple name, and the simple
names of the types around it, the innermost first. -/
structure TypeIdentity where
  dottedNamespace : String
  name : String
  around : List String
deriving DecidableEq

namespace TypeIdentity

/-- The identity of a type inside a type of this identity. -/
def inner (identity : TypeIdentity) (name : String) : TypeIdentity :=
  ⟨identity.dottedNamespace, name, identity.name :: identity.around⟩

/-- The key of a type with these names in tables. -/
def keyOf (dotted : String) : (name : String) → (around : List String) → String
  | name, [] => if dotted.isEmpty then name else dotted ++ "." ++ name
  | name, outer :: around => keyOf dotted outer around ++ "/" ++ name

/-- The key of a type of this identity in tables. -/
def key (identity : TypeIdentity) : String := keyOf identity.dottedNamespace identity.name identity.around

/-- Whether a simple name holds no separator. -/
def IsPlainName (name : String) : Prop := '.' ∉ name.toList ∧ '/' ∉ name.toList

instance (name : String) : Decidable (IsPlainName name) := inferInstanceAs (Decidable (_ ∧ _))

/-- Whether the simple names hold no separator, and the namespace none of those between names of types. -/
def IsPlain (identity : TypeIdentity) : Prop :=
  '/' ∉ identity.dottedNamespace.toList ∧ ∀ name ∈ identity.name :: identity.around, IsPlainName name

instance (identity : TypeIdentity) : Decidable identity.IsPlain := inferInstanceAs (Decidable (_ ∧ _))

/-! ## Taking a key apart -/

section Separators

variable {separator : Char} {front otherFront back otherBack : String}

theorem takeWhile_reverse_of_last {front back : List Char} (last : separator ∉ back) :
    (front ++ separator :: back).reverse.takeWhile (· ≠ separator) = back.reverse := by
  have upTo : ∀ character ∈ back.reverse, decide (character ≠ separator) = true := by
    intro character characterMem
    rw [decide_eq_true_eq]
    rintro rfl
    exact last (List.mem_reverse.mp characterMem)
  rw [List.reverse_append, List.reverse_cons, List.append_assoc, List.takeWhile_append_of_pos upTo,
    List.singleton_append, List.takeWhile_cons_of_neg (by simp), List.append_nil]

/-- What stands in front of the last separator and what stands behind it can be told from the whole. -/
theorem eq_of_append_separator (last : separator ∉ back.toList) (otherLast : separator ∉ otherBack.toList)
    (same : front.toList ++ separator :: back.toList = otherFront.toList ++ separator :: otherBack.toList) :
    front = otherFront ∧ back = otherBack := by
  have behind : back.toList = otherBack.toList := by
    rw [← List.reverse_inj, ← takeWhile_reverse_of_last last, same, takeWhile_reverse_of_last otherLast]
  rw [behind, List.append_left_inj] at same
  exact ⟨String.toList_inj.mp same, String.toList_inj.mp behind⟩

theorem toList_append_dot (dotted name : String) :
    (dotted ++ "." ++ name).toList = dotted.toList ++ '.' :: name.toList := by
  simp

theorem toList_append_slash (outer name : String) :
    (outer ++ "/" ++ name).toList = outer.toList ++ '/' :: name.toList := by
  simp

end Separators

section Keys

variable {dotted otherDotted name otherName : String} {around otherAround : List String}

/-- The name of a type that is not inside another tells its namespace, which may have dots itself. -/
theorem eq_of_keyOf_nil (plain : IsPlainName name) (otherPlain : IsPlainName otherName)
    (same : keyOf dotted name [] = keyOf otherDotted otherName []) : dotted = otherDotted ∧ name = otherName := by
  have undotted {dotted simple other : String} (plain : IsPlainName simple) : simple ≠ dotted ++ "." ++ other := by
    rintro rfl
    exact plain.1 (by simp)
  unfold keyOf at same
  split at same
  · rename_i noNamespace
    split at same
    · rename_i neither
      rw [String.isEmpty_iff] at noNamespace neither
      exact ⟨noNamespace.trans neither.symm, same⟩
    · exact absurd same (undotted plain)
  · split at same
    · exact absurd same.symm (undotted otherPlain)
    · apply eq_of_append_separator plain.1 otherPlain.1
      rw [← toList_append_dot, same, toList_append_dot]

theorem slash_notMem_keyOf_nil (undivided : '/' ∉ dotted.toList) (plain : IsPlainName name) :
    '/' ∉ (keyOf dotted name []).toList := by
  unfold keyOf
  split
  · exact plain.2
  · rw [toList_append_dot]
    simp [undivided, plain.2]

theorem slash_mem_keyOf_cons (outer : String) : '/' ∈ (keyOf dotted name (outer :: around)).toList := by
  rw [keyOf, toList_append_slash]
  simp

/-- The name of a type tells its identity, from the inside out. -/
theorem eq_of_keyOf (undivided : '/' ∉ dotted.toList) (otherUndivided : '/' ∉ otherDotted.toList)
    (plain : ∀ simple ∈ name :: around, IsPlainName simple)
    (otherPlain : ∀ simple ∈ otherName :: otherAround, IsPlainName simple)
    (same : keyOf dotted name around = keyOf otherDotted otherName otherAround) :
    dotted = otherDotted ∧ name = otherName ∧ around = otherAround := by
  induction around generalizing name otherName otherAround with
  | nil =>
      cases otherAround with
      | nil =>
          have parts := eq_of_keyOf_nil (plain name List.mem_cons_self) (otherPlain otherName List.mem_cons_self) same
          exact ⟨parts.1, parts.2, rfl⟩
      | cons outer otherAround =>
          have divided : '/' ∈ (keyOf dotted name []).toList := same ▸ slash_mem_keyOf_cons outer
          exact absurd divided (slash_notMem_keyOf_nil undivided (plain name List.mem_cons_self))
  | cons outer around ih =>
      cases otherAround with
      | nil =>
          have divided : '/' ∈ (keyOf otherDotted otherName []).toList := same ▸ slash_mem_keyOf_cons outer
          exact absurd divided (slash_notMem_keyOf_nil otherUndivided (otherPlain otherName List.mem_cons_self))
      | cons otherOuter otherAround =>
          rw [List.forall_mem_cons] at plain otherPlain
          have parts : keyOf dotted outer around = keyOf otherDotted otherOuter otherAround ∧ name = otherName := by
            apply eq_of_append_separator plain.1.2 otherPlain.1.2
            rw [← toList_append_slash, ← toList_append_slash]
            exact congrArg String.toList same
          rcases ih plain.2 otherPlain.2 parts.1 with ⟨sameNamespace, sameOuter, sameAround⟩
          exact ⟨sameNamespace, parts.2, by rw [sameOuter, sameAround]⟩

/-- Plain identities have different keys. -/
theorem key_inj {left right : TypeIdentity} (plain : left.IsPlain) (otherPlain : right.IsPlain) :
    left.key = right.key ↔ left = right := by
  refine ⟨fun same => ?_, congrArg key⟩
  rcases eq_of_keyOf plain.1 otherPlain.1 plain.2 otherPlain.2 same with ⟨sameNamespace, sameName, sameAround⟩
  cases left
  cases right
  simp_all

end Keys

end TypeIdentity

/-! ## Identities of references and of live types -/

/-- The identity of a named type. -/
def NamedType.identity : NamedType → TypeIdentity
  | ⟨dotted, name, none, _, _⟩ => ⟨dotted, name, []⟩
  | ⟨_, name, some outer, _, _⟩ => (NamedType.identity outer).inner name

theorem NamedType.parts_identity : (type : NamedType) →
    type.identity.dottedNamespace = type.outermostNamespace ∧ type.identity.name = type.name
  | ⟨_, _, none, _, _⟩ => ⟨rfl, rfl⟩
  | ⟨_, _, some outer, _, _⟩ => ⟨(NamedType.parts_identity outer).1, rfl⟩

theorem NamedType.definitionName_eq_key : (type : NamedType) → type.definitionName = type.identity.key
  | ⟨_, _, none, _, _⟩ => rfl
  | ⟨_, name, some outer, _, _⟩ =>
    congrArg (· ++ "/" ++ name) (NamedType.definitionName_eq_key outer)

/-- The identity of a reference, if it is to a named type. -/
def TypeRef.identity? : TypeRef → Option TypeIdentity
  | .named type => some type.identity
  | _ => none

theorem TypeRef.definitionName_eq_map (reference : TypeRef) :
    reference.definitionName = reference.identity?.map TypeIdentity.key := by
  cases reference with
  | named type => exact congrArg some type.definitionName_eq_key
  | _ => rfl

theorem TypeRef.parts_of_identity? {reference : TypeRef} {identity : TypeIdentity}
    (known : reference.identity? = some identity) :
    identity.dottedNamespace = reference.lookupNamespace ∧ identity.name = reference.simpleName := by
  cases reference with
  | named type =>
      cases known
      exact type.parts_identity
  | _ => cases known

/-- The identity of a live type, if it and all types on the way outwards are named. -/
def HostType.identity? : HostType → Option TypeIdentity
  | .named dotted name _ none _ => some ⟨dotted, name, []⟩
  | .named _ name _ (some outer) _ => (HostType.identity? outer).map (·.inner name)
  | _ => none

theorem HostType.dottedNamespace_of_identity? : (type : HostType) → {identity : TypeIdentity} →
    type.identity? = some identity → identity.dottedNamespace = type.lookupNamespace
  | .named _ _ _ none _, _, rfl => rfl
  | .named _ _ _ (some outer) _, _, known => by
    rcases Option.map_eq_some_iff.mp known with ⟨outerIdentity, outerKnown, rfl⟩
    have around : outerIdentity.dottedNamespace = outer.lookupNamespace := dottedNamespace_of_identity? outer outerKnown
    exact around

theorem HostType.identity_enclosingReference : (type : HostType) → {identity : TypeIdentity} →
    type.identity? = some identity → type.enclosingReference.identity = identity
  | .named _ _ _ none _, _, rfl => rfl
  | .named _ name _ (some outer) _, identity, known => by
    rcases Option.map_eq_some_iff.mp known with ⟨outerIdentity, outerKnown, rfl⟩
    exact congrArg (·.inner name) (identity_enclosingReference outer outerKnown)

theorem HostType.isNamed_of_identity? {type : HostType} {identity : TypeIdentity}
    (known : type.identity? = some identity) : type.IsNamed := by
  cases type with
  | named => trivial
  | _ => cases known

/-- A type of some identity goes by the same identity in references. -/
theorem HostType.identity?_reference {type : HostType} {identity : TypeIdentity}
    (known : type.identity? = some identity) : type.reference.identity? = some identity := by
  rw [reference_eq_named (isNamed_of_identity? known), TypeRef.identity?, identity_enclosingReference type known]

theorem HostType.parts_of_identity? {type : HostType} {identity : TypeIdentity}
    (known : type.identity? = some identity) :
    identity.dottedNamespace = type.lookupNamespace ∧ identity.name = type.simpleName :=
  ⟨dottedNamespace_of_identity? type known, (TypeRef.parts_of_identity? (identity?_reference known)).2⟩

end CilRelink
