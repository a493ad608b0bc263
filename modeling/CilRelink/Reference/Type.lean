/-!
# Type references

The types that compiled code mentions. A reference is a tree: a named type may be enclosed in another named type
and applied to type arguments, and every type may become an array, a managed reference or a pointer. Both kinds of
tree are defined together, so equality and every walk over them is a pair of functions.
-/
namespace CilRelink

/-- Whether a generic parameter belongs to a type or to a method. -/
inductive PlaceholderOwner where
  | type
  | method
deriving DecidableEq

/-- A generic parameter standing for a type. Compiled references know its position, definitions its name too. -/
structure Placeholder where
  owner : PlaceholderOwner
  index : Nat
  name : Option String
deriving DecidableEq

mutual

/-- A type as compiled code refers to it. -/
inductive TypeRef where
  | named (type : NamedType)
  | placeholder (parameter : Placeholder)
  | array (element : TypeRef) (rank : Nat)
  | byRef (target : TypeRef)
  | pointer (target : TypeRef)

/-- A type with a name of its own. `assembly` is where the reference expects to find it, if recorded. -/
structure NamedType where
  dottedNamespace : String
  name : String
  enclosing : Option NamedType
  arguments : List TypeRef
  assembly : Option String

end

mutual

/-- Equality of type references is decided part by part. -/
def TypeRef.decideEq : (left right : TypeRef) → Decidable (left = right)
  | .named left, .named right =>
    match NamedType.decideEq left right with
    | isTrue same => isTrue (by rw [same])
    | isFalse differ => isFalse fun same => differ (TypeRef.named.inj same)
  | .placeholder left, .placeholder right =>
    if same : left = right then isTrue (by rw [same])
    else isFalse fun both => same (TypeRef.placeholder.inj both)
  | .array left leftRank, .array right rightRank =>
    match TypeRef.decideEq left right with
    | isTrue same =>
      if sameRank : leftRank = rightRank then isTrue (by rw [same, sameRank])
      else isFalse fun both => sameRank (TypeRef.array.inj both).2
    | isFalse differ => isFalse fun both => differ (TypeRef.array.inj both).1
  | .byRef left, .byRef right =>
    match TypeRef.decideEq left right with
    | isTrue same => isTrue (by rw [same])
    | isFalse differ => isFalse fun both => differ (TypeRef.byRef.inj both)
  | .pointer left, .pointer right =>
    match TypeRef.decideEq left right with
    | isTrue same => isTrue (by rw [same])
    | isFalse differ => isFalse fun both => differ (TypeRef.pointer.inj both)
  | .named _, .placeholder _ | .named _, .array _ _ | .named _, .byRef _ | .named _, .pointer _
  | .placeholder _, .named _ | .placeholder _, .array _ _ | .placeholder _, .byRef _ | .placeholder _, .pointer _
  | .array _ _, .named _ | .array _ _, .placeholder _ | .array _ _, .byRef _ | .array _ _, .pointer _
  | .byRef _, .named _ | .byRef _, .placeholder _ | .byRef _, .array _ _ | .byRef _, .pointer _
  | .pointer _, .named _ | .pointer _, .placeholder _ | .pointer _, .array _ _ | .pointer _, .byRef _ =>
    isFalse nofun

/-- Equality of named types is decided part by part. -/
def NamedType.decideEq : (left right : NamedType) → Decidable (left = right)
  | ⟨leftSpace, leftName, none, leftArguments, leftAssembly⟩,
      ⟨rightSpace, rightName, none, rightArguments, rightAssembly⟩ =>
    match TypeRef.decideEqList leftArguments rightArguments with
    | isTrue same =>
      if others : leftSpace = rightSpace ∧ leftName = rightName ∧ leftAssembly = rightAssembly then
        isTrue (by rw [same, others.1, others.2.1, others.2.2])
      else isFalse fun both => by cases both; exact others ⟨rfl, rfl, rfl⟩
    | isFalse differ => isFalse fun both => by cases both; exact differ rfl
  | ⟨leftSpace, leftName, some leftOuter, leftArguments, leftAssembly⟩,
      ⟨rightSpace, rightName, some rightOuter, rightArguments, rightAssembly⟩ =>
    match NamedType.decideEq leftOuter rightOuter, TypeRef.decideEqList leftArguments rightArguments with
    | isTrue sameOuter, isTrue same =>
      if others : leftSpace = rightSpace ∧ leftName = rightName ∧ leftAssembly = rightAssembly then
        isTrue (by rw [sameOuter, same, others.1, others.2.1, others.2.2])
      else isFalse fun both => by cases both; exact others ⟨rfl, rfl, rfl⟩
    | isFalse differ, _ => isFalse fun both => by cases both; exact differ rfl
    | _, isFalse differ => isFalse fun both => by cases both; exact differ rfl
  | ⟨_, _, none, _, _⟩, ⟨_, _, some _, _, _⟩ | ⟨_, _, some _, _, _⟩, ⟨_, _, none, _, _⟩ =>
    isFalse fun both => by cases both

/-- Equality of lists of type references is decided element by element. -/
def TypeRef.decideEqList : (left right : List TypeRef) → Decidable (left = right)
  | [], [] => isTrue rfl
  | left :: lefts, right :: rights =>
    match TypeRef.decideEq left right, TypeRef.decideEqList lefts rights with
    | isTrue same, isTrue sameRest => isTrue (by rw [same, sameRest])
    | isFalse differ, _ => isFalse fun both => differ (List.cons.inj both).1
    | _, isFalse differ => isFalse fun both => differ (List.cons.inj both).2
  | [], _ :: _ | _ :: _, [] => isFalse nofun

end

instance : DecidableEq TypeRef := TypeRef.decideEq

instance : DecidableEq NamedType := NamedType.decideEq

instance : Inhabited NamedType := ⟨⟨"", "", none, [], none⟩⟩

instance : Inhabited TypeRef := ⟨.named default⟩

namespace NamedType

/-- The namespace of the outermost enclosing type. -/
def outermostNamespace : NamedType → String
  | ⟨dotted, _, none, _, _⟩ => dotted
  | ⟨_, _, some outer, _, _⟩ => outermostNamespace outer

/-- The name of the definition the type is an instance of: its arguments are left out, and those of the types that
enclose it. -/
def definitionName : NamedType → String
  | ⟨dotted, name, none, _, _⟩ => if dotted.isEmpty then name else dotted ++ "." ++ name
  | ⟨_, name, some outer, _, _⟩ => definitionName outer ++ "/" ++ name

end NamedType

namespace TypeRef

/-- A type that is neither enclosed nor generic, found in no particular assembly. -/
def simple (dotted name : String) : TypeRef := .named ⟨dotted, name, none, [], none⟩

/-- The type of methods without a result. -/
def void : TypeRef := simple "System" "Void"

/-- The type `name` inside `outer`; only named types enclose others. -/
def nested (outer : TypeRef) (name : String) : Option TypeRef :=
  match outer with
  | .named outer => some (.named ⟨"", name, some outer, [], none⟩)
  | _ => none

/-- The reference with its assembly recorded, if it is a named type. -/
def inAssembly (type : TypeRef) (assembly : String) : TypeRef :=
  match type with
  | .named type => .named { type with assembly := some assembly }
  | other => other

/-- The namespace a look-up by name starts from; a placeholder has none. -/
def lookupNamespace : TypeRef → String
  | .named type => type.outermostNamespace
  | .placeholder _ => ""
  | .array element _ => lookupNamespace element
  | .byRef target => lookupNamespace target
  | .pointer target => lookupNamespace target

/-- The type arguments; only named types have any. -/
def arguments : TypeRef → List TypeRef
  | .named type => type.arguments
  | _ => []

/-- Whether the type is a generic type applied to arguments. -/
def isGenericInstance (type : TypeRef) : Bool := !type.arguments.isEmpty

/-- The name of the definition a named type is an instance of; it is the key of the type in every table. -/
def definitionName : TypeRef → Option String
  | .named type => some type.definitionName
  | _ => none

/-- The assembly a reference resolves against: its own or that of the type directly around it. -/
def assembly : TypeRef → Option String
  | .named type => type.assembly <|> type.enclosing.bind NamedType.assembly
  | .placeholder _ => none
  | .array element _ => assembly element
  | .byRef target => assembly target
  | .pointer target => assembly target

mutual

/-- Whether a placeholder occurs in the type, in its arguments, or in those of the type directly around it. -/
def mentionsPlaceholder : TypeRef → Bool
  | .named ⟨_, _, none, arguments, _⟩ => anyMentionsPlaceholder arguments
  | .named ⟨_, _, some ⟨_, _, _, outerArguments, _⟩, arguments, _⟩ =>
    anyMentionsPlaceholder arguments || anyMentionsPlaceholder outerArguments
  | .placeholder _ => true
  | .array element _ => mentionsPlaceholder element
  | .byRef target => mentionsPlaceholder target
  | .pointer target => mentionsPlaceholder target

/-- Whether a placeholder occurs in one of the types. -/
def anyMentionsPlaceholder : List TypeRef → Bool
  | [] => false
  | type :: types => mentionsPlaceholder type || anyMentionsPlaceholder types

end

end TypeRef

end CilRelink
