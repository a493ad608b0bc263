import CilRelink.Rule.Verdict

/-!
# Finding broken references

References into assemblies of the host are checked against the table of live types: every type that a reference
mentions has to be there, and a member has to be declared by its type or, constructors apart, by one of the bases. A
chain of bases may lead to a type of the host that is not in the table; whatever is not found before is then assumed
to be declared there. A member that is found may still have changed what it returns or holds.

So bases are gone through twice, once to learn whether a member is declared, and once to get at it. The first time, the
way ends at the first base that is not the host's, and the second time it does not.
-/
namespace CilRelink

/-- What becomes of looking for a member in a type and its bases. -/
inductive Lookup where
  /-- One of them declares it. -/
  | found
  /-- None of them does. -/
  | missing
  /-- None that the table has does, but a base in the host is not in the table. -/
  | unknown
deriving DecidableEq

namespace HostTable

/-- Looks for a member in a type and its bases, up to the first that is not the host's or not in the table, but at most
`limit` of them. -/
def lookupWithin (table : HostTable) (declares : HostDefinition → Bool) : (limit : Nat) → HostDefinition → Lookup
  | 0, definition => if declares definition then .found else .missing
  | limit + 1, definition =>
    if declares definition then .found
    else
      match definition.base with
      | none => .missing
      | some base =>
        if !table.owns base.reference then .missing
        else
          match table.find? base.reference with
          | none => .unknown
          | some next => table.lookupWithin declares limit next

/-- Looks for a member in a type and its bases. A chain without repetition is no longer than the table. -/
def lookup (table : HostTable) (declares : HostDefinition → Bool) (definition : HostDefinition) : Lookup :=
  table.lookupWithin declares table.size definition

/-- The first member that is declared in a type or one of its bases, up to the first that is not in the table, whoever's
it is, but at most `limit` of them. -/
def firstWithin (table : HostTable) (declared : HostDefinition → Option Member) :
    (limit : Nat) → HostDefinition → Option Member
  | 0, definition => declared definition
  | limit + 1, definition =>
    match declared definition with
    | some member => some member
    | none =>
      match definition.base.bind fun base => table.find? base.reference with
      | none => none
      | some next => table.firstWithin declared limit next

/-- The first member that is declared in a type or one of its bases. -/
def first? (table : HostTable) (declared : HostDefinition → Option Member) (definition : HostDefinition) :
    Option Member :=
  table.firstWithin declared table.size definition

end HostTable

namespace Breakage

mutual

/-- The first type of the host that a type mentions without being in the table. -/
def ofType (host : HostTable) : TypeRef → Option Breakage
  | .named ⟨dotted, name, enclosing, arguments, assembly⟩ =>
    let type : TypeRef := .named ⟨dotted, name, enclosing, arguments, assembly⟩
    if host.owns type && (host.find? type).isNone then some (.missingType type)
    else ofTypes host arguments
  | .placeholder _ => none
  | .array element _ => ofType host element
  | .byRef target => ofType host target
  | .pointer target => ofType host target

/-- The first type of the host that one of the types mentions without being in the table. -/
def ofTypes (host : HostTable) : List TypeRef → Option Breakage
  | [] => none
  | type :: types =>
    match ofType host type with
    | some breakage => some breakage
    | none => ofTypes host types

end

/-- What is broken about a member of a type. First it is only looked up whether there is one, and if so, `declared`
finds the first of them on another way up, and `changed` tells how it differs from what was expected. -/
def ofMember (host : HostTable) (declaringType : TypeRef) (lookup : HostDefinition → Lookup)
    (declared : HostDefinition → Option Member) (missing : Breakage) (changed : Member → Option Breakage) :
    Option Breakage :=
  match (host.find? declaringType).map lookup with
  | some .missing => some missing
  | some .unknown | none => none
  | some .found =>
    match (host.find? declaringType).bind (host.first? declared) with
    | some member => changed member
    | none => none

/-- Looks for what a reference to a method can bind to. Constructors are not inherited. -/
def lookupMethod (host : HostTable) (reference : MethodRef) (definition : HostDefinition) : Lookup :=
  if reference.isConstructor then
    if definition.declares reference then .found else .missing
  else host.lookup (·.declares reference) definition

/-- What is broken about a reference to a method. -/
def ofMethod (host : HostTable) (reference : MethodRef) : Option Breakage :=
  let mentioned :=
    reference.declaringType :: reference.returnType :: (reference.parameters ++ reference.genericArguments)
  match ofTypes host mentioned with
  | some breakage => some breakage
  | none =>
    if !host.owns reference.declaringType then none
    else
      ofMember host reference.declaringType (lookupMethod host reference)
        (fun definition => (definition.callables reference.name).find? (·.hasSignature reference))
        (.missingMethod reference) fun live =>
          if live.returnType.isDenotedBy reference.returnType then none
          else some (.otherReturnType reference live.returnType)

/-- What is broken about a reference to a field. -/
def ofField (host : HostTable) (reference : FieldRef) : Option Breakage :=
  match ofTypes host [reference.declaringType, reference.fieldType] with
  | some breakage => some breakage
  | none =>
    if !host.owns reference.declaringType then none
    else
      ofMember host reference.declaringType (host.lookup fun definition => (definition.field? reference.name).isSome)
        (·.field? reference.name) (.missingField reference) fun live =>
          if live.fieldType.isDenotedBy reference.fieldType then none
          else some (.otherFieldType reference live.fieldType)

/-- What is broken about an operand. -/
def ofOperand (host : HostTable) : Operand → Option Breakage
  | .method reference | .symbol (.method reference) => ofMethod host reference
  | .field reference | .symbol (.field reference) => ofField host reference
  | .type reference | .symbol (.type reference) => ofType host reference
  | _ => none

/-- Reports the reference of an instruction if it is broken. -/
def judge (context : RuleContext) (instruction : Instruction) : Option Verdict :=
  (ofOperand context.host instruction.operand).map .incompatible

end Breakage

end CilRelink
