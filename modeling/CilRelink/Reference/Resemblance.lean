import CilRelink.Reference.Identity

/-!
# Resemblance of references

Compiled code knows a generic parameter by its position, a definition by its name, so references that mean the same
may differ in their placeholders. Two references resemble each other if their placeholders can be paired one to
one, type parameters with type parameters and method parameters with method parameters, so that they become the
same. The pairing is collected on a walk through both trees, enclosing types before arguments.
-/
namespace CilRelink

/-- Pairs of placeholders, the first of one reference and the second of the other. -/
abbrev Pairing := List (Placeholder × Placeholder)

/-- Adds a pair unless it contradicts one that is there; parameters of types and of methods do not mix. -/
def Pairing.bind (pairing : Pairing) (left right : Placeholder) : Option Pairing :=
  if left.owner = right.owner then
    match pairing.find? (·.1 = left), pairing.find? (·.2 = right) with
    | none, none => some ((left, right) :: pairing)
    | some forward, some backward => if forward.2 = right ∧ backward.1 = left then some pairing else none
    | _, _ => none
  else none

mutual

/-- Extends the pairing so that the references become the same, if that is possible. -/
def TypeRef.pair (pairing : Pairing) : (left right : TypeRef) → Option Pairing
  | .named left, .named right => NamedType.pair pairing left right
  | .placeholder left, .placeholder right => pairing.bind left right
  | .array left leftRank, .array right rightRank =>
    if leftRank = rightRank then TypeRef.pair pairing left right else none
  | .byRef left, .byRef right => TypeRef.pair pairing left right
  | .pointer left, .pointer right => TypeRef.pair pairing left right
  | _, _ => none

/-- Extends the pairing so that the named references become the same, if that is possible. -/
def NamedType.pair (pairing : Pairing) : (left right : NamedType) → Option Pairing
  | ⟨leftSpace, leftName, none, leftArguments, _⟩, ⟨rightSpace, rightName, none, rightArguments, _⟩ =>
    if leftSpace = rightSpace ∧ leftName = rightName then
      TypeRef.pairAll pairing leftArguments rightArguments
    else none
  | ⟨leftSpace, leftName, some leftOuter, leftArguments, _⟩,
      ⟨rightSpace, rightName, some rightOuter, rightArguments, _⟩ =>
    if leftSpace = rightSpace ∧ leftName = rightName then
      match NamedType.pair pairing leftOuter rightOuter with
      | none => none
      | some extended => TypeRef.pairAll extended leftArguments rightArguments
    else none
  | _, _ => none

/-- Extends the pairing so that the references of two lists become the same one by one, if that is possible. -/
def TypeRef.pairAll (pairing : Pairing) : (left right : List TypeRef) → Option Pairing
  | [], [] => some pairing
  | left :: lefts, right :: rights =>
    match TypeRef.pair pairing left right with
    | none => none
    | some extended => TypeRef.pairAll extended lefts rights
  | _, _ => none

end

/-- Whether two references are the same up to a renaming of placeholders. -/
def TypeRef.resembles (left right : TypeRef) : Bool := (TypeRef.pair [] left right).isSome

/-- Resemblance where a reference may be missing: nothing resembles only nothing. -/
def TypeRef.resembles? : (left right : Option TypeRef) → Bool
  | none, none => true
  | some left, some right => left.resembles right
  | _, _ => false

/-- How sure it is that two references mean the same. -/
inductive Confidence where
  /-- Only after renaming placeholders. -/
  | heuristic
  /-- As they stand. -/
  | exact
deriving DecidableEq

namespace Confidence

/-- The weaker of two. -/
def weaker : (left right : Confidence) → Confidence
  | exact, exact => exact
  | _, _ => heuristic

/-- The name of the confidence. -/
def name : Confidence → String
  | heuristic => "Heuristic"
  | exact => "Exact"

end Confidence

/-- How sure it is that two references denote the same type, if they do at all. -/
def TypeRef.compare (left right : TypeRef) : Option Confidence :=
  if left.denotesSame right then some .exact
  else if left.resembles right then some .heuristic
  else none

/-- How sure it is that the references of two lists denote the same types one by one: as sure as for the pair of
which it is least sure. -/
def TypeRef.compareAll : (left right : List TypeRef) → Option Confidence
  | [], [] => some .exact
  | left :: lefts, right :: rights =>
    match left.compare right, TypeRef.compareAll lefts rights with
    | some first, some others => some (first.weaker others)
    | _, _ => none
  | _, _ => none

/-- How sure it is that two references have the same name and parameter types. -/
def MethodRef.compareSignature (left right : MethodRef) : Option Confidence :=
  if left.name = right.name then TypeRef.compareAll left.parameters right.parameters else none

end CilRelink
