import CilRelink.Reference.Member

/-!
# Live types

The types loaded in the host process. They are concrete, so there are no placeholders among them, and every live
type has a reference that compiled code would use for it. A type is enclosed in a named type; an enclosing shape
has no counterpart among references and is described by its text alone.
-/
namespace CilRelink

open Text (Outline)

/-- A type of the host process. -/
inductive HostType where
  | named (dottedNamespace name : String) (assembly : Option String) (enclosing : Option HostType)
    (arguments : List HostType)
  | array (element : HostType) (rank : Nat)
  | byRef (target : HostType)
  | pointer (target : HostType)

namespace HostType

mutual

/-- Equality of live types is decided part by part. -/
def decideEq : (left right : HostType) → Decidable (left = right)
  | .named leftSpace leftName leftAssembly none leftArguments,
      .named rightSpace rightName rightAssembly none rightArguments =>
    match decideEqList leftArguments rightArguments with
    | isTrue same =>
      if others : leftSpace = rightSpace ∧ leftName = rightName ∧ leftAssembly = rightAssembly then
        isTrue (by rw [same, others.1, others.2.1, others.2.2])
      else isFalse fun both => by cases both; exact others ⟨rfl, rfl, rfl⟩
    | isFalse differ => isFalse fun both => by cases both; exact differ rfl
  | .named leftSpace leftName leftAssembly (some leftOuter) leftArguments,
      .named rightSpace rightName rightAssembly (some rightOuter) rightArguments =>
    match decideEq leftOuter rightOuter, decideEqList leftArguments rightArguments with
    | isTrue sameOuter, isTrue same =>
      if others : leftSpace = rightSpace ∧ leftName = rightName ∧ leftAssembly = rightAssembly then
        isTrue (by rw [sameOuter, same, others.1, others.2.1, others.2.2])
      else isFalse fun both => by cases both; exact others ⟨rfl, rfl, rfl⟩
    | isFalse differ, _ => isFalse fun both => by cases both; exact differ rfl
    | _, isFalse differ => isFalse fun both => by cases both; exact differ rfl
  | .named _ _ _ none _, .named _ _ _ (some _) _ | .named _ _ _ (some _) _, .named _ _ _ none _ =>
    isFalse fun both => by cases both
  | .array left leftRank, .array right rightRank =>
    match decideEq left right with
    | isTrue same =>
      if sameRank : leftRank = rightRank then isTrue (by rw [same, sameRank])
      else isFalse fun both => sameRank (HostType.array.inj both).2
    | isFalse differ => isFalse fun both => differ (HostType.array.inj both).1
  | .byRef left, .byRef right =>
    match decideEq left right with
    | isTrue same => isTrue (by rw [same])
    | isFalse differ => isFalse fun both => differ (HostType.byRef.inj both)
  | .pointer left, .pointer right =>
    match decideEq left right with
    | isTrue same => isTrue (by rw [same])
    | isFalse differ => isFalse fun both => differ (HostType.pointer.inj both)
  | .named .., .array .. | .named .., .byRef _ | .named .., .pointer _
  | .array .., .named .. | .array .., .byRef _ | .array .., .pointer _
  | .byRef _, .named .. | .byRef _, .array .. | .byRef _, .pointer _
  | .pointer _, .named .. | .pointer _, .array .. | .pointer _, .byRef _ => isFalse nofun

/-- Equality of lists of live types is decided element by element. -/
def decideEqList : (left right : List HostType) → Decidable (left = right)
  | [], [] => isTrue rfl
  | left :: lefts, right :: rights =>
    match decideEq left right, decideEqList lefts rights with
    | isTrue same, isTrue sameRest => isTrue (by rw [same, sameRest])
    | isFalse differ, _ => isFalse fun both => differ (List.cons.inj both).1
    | _, isFalse differ => isFalse fun both => differ (List.cons.inj both).2
  | [], _ :: _ | _ :: _, [] => isFalse nofun

end

instance : DecidableEq HostType := decideEq

/-- A type that is neither enclosed nor generic, of no recorded assembly. -/
def simple (dotted name : String) : HostType := .named dotted name none none []

instance : Inhabited HostType := ⟨simple "" ""⟩

/-- The type of methods without a result. -/
def void : HostType := simple "System" "Void"

/-- The type of truth values. -/
def boolean : HostType := simple "System" "Boolean"

/-- The type of integers of 32 bits. -/
def int32 : HostType := simple "System" "Int32"

/-- The type of integers of 64 bits. -/
def int64 : HostType := simple "System" "Int64"

/-- The type of strings. -/
def string : HostType := simple "System" "String"

/-- The base of every other type. -/
def object : HostType := simple "System" "Object"

/-- The type `name` inside `outer`. -/
def nested (outer : HostType) (name : String) : HostType := .named "" name none (some outer) []

/-- The type with its assembly recorded, if it is a named type. -/
def inAssembly (type : HostType) (assembly : String) : HostType :=
  match type with
  | .named dotted name _ enclosing arguments => .named dotted name (some assembly) enclosing arguments
  | other => other

/-- The assembly that declares the type: its own or else that of the type around it, and so on outwards. -/
def assembly : HostType → Option String
  | .named _ _ (some own) _ _ => some own
  | .named _ _ none none _ => none
  | .named _ _ none (some outer) _ => assembly outer
  | .array element _ => assembly element
  | .byRef target => assembly target
  | .pointer target => assembly target

/-- The namespace of the outermost type around the type. -/
def lookupNamespace : HostType → String
  | .named dotted _ _ none _ => dotted
  | .named _ _ _ (some outer) _ => lookupNamespace outer
  | .array element _ => lookupNamespace element
  | .byRef target => lookupNamespace target
  | .pointer target => lookupNamespace target

/-- The type arguments; only named types have any. -/
def arguments : HostType → List HostType
  | .named _ _ _ _ arguments => arguments
  | _ => []

mutual

/-- The reference that compiled code uses for the type. -/
def reference : HostType → TypeRef
  | .named dotted name assembly none arguments =>
    .named ⟨dotted, name, none, references arguments, assembly⟩
  | .named dotted name assembly (some outer) arguments =>
    .named ⟨dotted, name, some (enclosingReference outer), references arguments, assembly⟩
  | .array element rank => .array (reference element) rank
  | .byRef target => .byRef (reference target)
  | .pointer target => .pointer (reference target)

/-- The reference for a type that encloses another; a shape becomes a type with its text for a name. -/
def enclosingReference : HostType → NamedType
  | .named dotted name assembly none arguments => ⟨dotted, name, none, references arguments, assembly⟩
  | .named dotted name assembly (some outer) arguments =>
    ⟨dotted, name, some (enclosingReference outer), references arguments, assembly⟩
  | .array element rank => ⟨"", (TypeRef.array (reference element) rank).text, none, [], none⟩
  | .byRef target => ⟨"", (TypeRef.byRef (reference target)).text, none, [], none⟩
  | .pointer target => ⟨"", (TypeRef.pointer (reference target)).text, none, [], none⟩

/-- The references for the types of a list. -/
def references : List HostType → List TypeRef
  | [] => []
  | type :: types => reference type :: references types

end

/-- The simple name, decorated. -/
def simpleName (type : HostType) : String := type.reference.simpleName

/-- The key of the type in tables, if it is a named type. -/
def definitionName (type : HostType) : Option String := type.reference.definitionName

/-- The type in listings and messages. -/
def text (type : HostType) : String := type.reference.text

mutual

/-- The type in outlines of values. -/
def outline : HostType → Outline
  | .named dotted name assembly none arguments =>
    .fields "Named"
      [("namespace", .string dotted), ("name", .string name), ("assembly", .optional .string assembly),
        ("declaring", .word "None"), ("generic_args", .items (outlines arguments))]
  | .named dotted name assembly (some outer) arguments =>
    .fields "Named"
      [("namespace", .string dotted), ("name", .string name), ("assembly", .optional .string assembly),
        ("declaring", .tagged "Some" [outline outer]), ("generic_args", .items (outlines arguments))]
  | .array element rank => .fields "Array" [("element", outline element), ("rank", .nat rank)]
  | .byRef target => .tagged "ByRef" [outline target]
  | .pointer target => .tagged "Pointer" [outline target]

/-- The types of a list in outlines of values. -/
def outlines : List HostType → List Outline
  | [] => []
  | type :: types => outline type :: outlines types

end

end HostType

end CilRelink
