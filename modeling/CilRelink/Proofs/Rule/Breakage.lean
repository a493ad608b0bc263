import CilRelink.Game.Definitions
import CilRelink.Proofs.Host.Ancestry
import CilRelink.Rule

/-!
# When a reference to a member is broken

A reference to a method and one to a field ask the same of the table of live types: that it has all types of the host
that are mentioned, that the type or one of its bases declares the member, and that the first one to be found is of the
type that the reference expects. So both are broken for the same three reasons, and reported for no other. Bases that
are not in the table are given the benefit of the doubt, and constructors are not looked for in bases.

Bases are gone through twice for a member. Both times it is the same type that declares it, and so one search through
the ancestry of the type is enough to say what is broken.
-/

namespace CilRelink

/-- Whether a type mentions a named one: as itself, in an argument, or in the element of an array or the target of a
reference or pointer. The shapes themselves are in no table, and what a type is enclosed in is not mentioned. -/
inductive TypeRef.Mentions (mentioned : NamedType) : TypeRef → Prop where
  | self : Mentions mentioned (.named mentioned)
  | argument {type : NamedType} {argument : TypeRef} (argumentMem : argument ∈ type.arguments)
      (inside : Mentions mentioned argument) : Mentions mentioned (.named type)
  | element {element : TypeRef} {rank : Nat} (inside : Mentions mentioned element) :
      Mentions mentioned (.array element rank)
  | byRef {target : TypeRef} (inside : Mentions mentioned target) : Mentions mentioned (.byRef target)
  | pointer {target : TypeRef} (inside : Mentions mentioned target) : Mentions mentioned (.pointer target)

/-- Whether a named type is to be found in the host, but is not in the table. -/
def HostTable.Misses (host : HostTable) (type : NamedType) : Prop :=
  host.owns (.named type) = true ∧ host.find? (.named type) = none

namespace Breakage

section Types

variable {host : HostTable}

mutual

/-- A type is broken if it mentions one that the table misses. -/
theorem ofType_eq_none_iff : (type : TypeRef) →
    (ofType host type = none ↔ ∀ mentioned, type.Mentions mentioned → ¬ host.Misses mentioned)
  | .named ⟨dotted, name, enclosing, arguments, assembly⟩ => by
    have inside := ofTypes_eq_none_iff arguments
    simp only [ofType, Bool.and_eq_true, Option.isNone_iff_eq_none]
    split
    · rename_i missed
      simp only [reduceCtorEq, false_iff]
      exact fun all => all _ .self missed
    · rename_i there
      rw [inside]
      constructor
      · intro all mentioned mention
        cases mention with
        | self => exact there
        | argument argumentMem inArgument => exact all _ argumentMem mentioned inArgument
      · exact fun all argument argumentMem mentioned inArgument => all mentioned (.argument argumentMem inArgument)
  | .placeholder _ => by
    simp only [ofType, true_iff]
    exact fun _ mention => nomatch mention
  | .array element _ => by
    rw [ofType, ofType_eq_none_iff element]
    exact forall_congr' fun _ => imp_congr_left ⟨.element, fun | .element inside => inside⟩
  | .byRef target => by
    rw [ofType, ofType_eq_none_iff target]
    exact forall_congr' fun _ => imp_congr_left ⟨.byRef, fun | .byRef inside => inside⟩
  | .pointer target => by
    rw [ofType, ofType_eq_none_iff target]
    exact forall_congr' fun _ => imp_congr_left ⟨.pointer, fun | .pointer inside => inside⟩

theorem ofTypes_eq_none_iff : (types : List TypeRef) →
    (ofTypes host types = none ↔
      ∀ type ∈ types, ∀ mentioned, type.Mentions mentioned → ¬ host.Misses mentioned)
  | [] => by simp only [ofTypes, List.not_mem_nil, false_implies, implies_true]
  | type :: types => by
    rw [List.forall_mem_cons, ← ofType_eq_none_iff type, ← ofTypes_eq_none_iff types, ofTypes]
    cases ofType host type <;> simp

end

end Types

end Breakage

/-- What a reference to a member asks of the table of live types. -/
structure Sought where
  declaringType : TypeRef
  /-- All types that the reference names. -/
  types : List TypeRef
  /-- Whether bases of the declaring type may declare the member, too. -/
  isInherited : Bool
  /-- What the first member that answers to the reference returns or holds, where a type declares one. -/
  declared? : HostDefinition → Option HostType
  /-- What the member is to return or to hold. -/
  memberType : TypeRef

/-- A method has a name and parameter types. Constructors are not inherited. -/
def MethodRef.sought (reference : MethodRef) : Sought where
  declaringType := reference.declaringType
  types := reference.declaringType :: reference.returnType :: (reference.parameters ++ reference.genericArguments)
  isInherited := !reference.isConstructor
  declared? definition :=
    ((definition.callables reference.name).find? (·.hasSignature reference)).map HostMethod.returnType
  memberType := reference.returnType

/-- A field has a name. -/
def FieldRef.sought (reference : FieldRef) : Sought where
  declaringType := reference.declaringType
  types := [reference.declaringType, reference.fieldType]
  isInherited := true
  declared? definition := (definition.field? reference.name).map HostField.fieldType
  memberType := reference.fieldType

/-- What an operand seeks that is a reference to a member, be it of a member access or of a load of a token. -/
def Operand.sought? : Operand → Option Sought
  | .method reference | .symbol (.method reference) => some reference.sought
  | .field reference | .symbol (.field reference) => some reference.sought
  | _ => Option.none

/-- What is broken about a member that is looked for in `ancestry`: `declared` finds it in a definition, and `changed`
tells how it differs from what was expected. -/
def Breakage.ofAncestry {Member : Type} (ancestry : Ancestry) (declared : HostDefinition → Option Member)
    (missing : Breakage) (changed : Member → Option Breakage) : Option Breakage :=
  match ancestry.known.findSome? declared with
  | some member => changed member
  | none => if ancestry.continues then none else some missing

namespace Sought

variable {sought : Sought} {host : HostTable} {definition : HostDefinition}

/-- The type `count` steps up from the declaring type, if it may declare the member. -/
def candidate? (sought : Sought) (host : HostTable) (definition : HostDefinition) (count : Nat) :
    Option HostDefinition :=
  if sought.isInherited || count = 0 then host.ancestor? definition count else none

/-- Why a reference to a member is broken. -/
inductive Broken (host : HostTable) (sought : Sought) : Prop where
  /-- It mentions a type of the host that is not in the table. -/
  | lost {type : TypeRef} {mentioned : NamedType} (typeMem : type ∈ sought.types)
      (mention : type.Mentions mentioned) (owned : host.owns (.named mentioned) = true)
      (unknown : host.find? (.named mentioned) = none)
  /-- No type that may declare the member does, and no more of them can be in the host. -/
  | undeclared {definition : HostDefinition} (owned : host.owns sought.declaringType = true)
      (found : host.find? sought.declaringType = some definition)
      (undeclared : ∀ count candidate, sought.candidate? host definition count = some candidate →
        sought.declared? candidate = none)
      (ended : sought.isInherited = true → ∃ count last, host.ancestor? definition count = some last ∧
        ∀ base ∈ last.base, host.owns base.reference = false)
  /-- The member is of another type where it is declared first. -/
  | changed {definition candidate : HostDefinition} {count : Nat} {live : HostType}
      (owned : host.owns sought.declaringType = true)
      (found : host.find? sought.declaringType = some definition)
      (reached : sought.candidate? host definition count = some candidate)
      (declared : sought.declared? candidate = some live)
      (first : ∀ earlier < count, ∀ other, sought.candidate? host definition earlier = some other →
        sought.declared? other = none)
      (differs : live.isDenotedBy sought.memberType = false)

/-- The types that may declare the member, as far as the search for them goes. -/
def ancestry (sought : Sought) (host : HostTable) (definition : HostDefinition) : Ancestry :=
  if sought.isInherited then host.ancestry definition else ⟨[definition], false⟩

/-- What is found to be broken about a reference to a member, in words for its kind. -/
def breakage (sought : Sought) (host : HostTable) (missing : Breakage) (changed : HostType → Breakage) :
    Option Breakage :=
  match Breakage.ofTypes host sought.types with
  | some breakage => some breakage
  | none =>
    if !host.owns sought.declaringType then none
    else
      match host.find? sought.declaringType with
      | none => none
      | some definition =>
        Breakage.ofAncestry (sought.ancestry host definition) sought.declared? missing fun live =>
          if live.isDenotedBy sought.memberType then none else some (changed live)

section Search

variable (acyclic : host.Acyclic) (held : definition ∈ host.known)

include acyclic held

theorem getElem?_ancestry (count : Nat) :
    (sought.ancestry host definition).known[count]? = sought.candidate? host definition count := by
  unfold ancestry candidate?
  cases sought.isInherited with
  | true => simpa using acyclic.getElem?_ancestry held count
  | false => cases count <;> rfl

theorem continues_ancestry_iff :
    (sought.ancestry host definition).continues = false ↔
      (sought.isInherited = true → ∃ count last, host.ancestor? definition count = some last ∧
        ∀ base ∈ last.base, host.owns base.reference = false) := by
  unfold ancestry
  cases sought.isInherited with
  | true => simpa using acyclic.not_continues_ancestry_iff held
  | false => simp

end Search

end Sought

/-- What is found first in a list is found at a place, and at no place before. -/
theorem findSome?_eq_some_iff_getElem? {α β : Type} {list : List α} {find : α → Option β} {found : β} :
    list.findSome? find = some found ↔
      ∃ (place : Nat) (element : α), list[place]? = some element ∧ find element = some found ∧
        ∀ earlier < place, ∀ other : α, list[earlier]? = some other → find other = none := by
  rw [List.findSome?_eq_some_iff]
  constructor
  · rintro ⟨front, element, back, rfl, here, nowhere⟩
    refine ⟨front.length, element, by simp, here, fun earlier before other stands => nowhere other ?_⟩
    rw [List.getElem?_append_left before] at stands
    exact List.mem_of_getElem? stands
  · rintro ⟨place, element, stands, here, nowhere⟩
    rcases List.getElem?_eq_some_iff.mp stands with ⟨inside, rfl⟩
    refine ⟨list.take place, list[place], list.drop (place + 1), ?_, here, fun other otherMem => ?_⟩
    · rw [← List.drop_eq_getElem_cons inside, List.take_append_drop]
    · rcases List.mem_iff_getElem?.mp otherMem with ⟨earlier, stands⟩
      rw [List.getElem?_take] at stands
      split at stands
      · exact nowhere earlier ‹_› other stands
      · cases stands

namespace Sought

variable {sought : Sought} {host : HostTable} {missing : Breakage} {changed : HostType → Breakage}

theorem broken_of_breakage (acyclic : host.Acyclic) {breakage : Breakage}
    (found : sought.breakage host missing changed = some breakage) : sought.Broken host := by
  unfold Sought.breakage Breakage.ofAncestry at found
  split at found
  · rename_i lost
    have misses : ¬ ∀ type ∈ sought.types, ∀ mentioned, type.Mentions mentioned → ¬ host.Misses mentioned := by
      rw [← Breakage.ofTypes_eq_none_iff, lost]
      exact Option.some_ne_none _
    push Not at misses
    rcases misses with ⟨type, typeMem, mentioned, mention, owned, unknown⟩
    exact .lost typeMem mention owned unknown
  · split at found
    · cases found
    · rename_i owned
      rw [Bool.not_eq_true, Bool.not_eq_false'] at owned
      split at found
      · cases found
      · rename_i definition known
        have held := HostTable.mem_known_of_find? known
        split at found
        · rename_i live first
          rw [findSome?_eq_some_iff_getElem?] at first
          simp only [getElem?_ancestry acyclic held] at first
          rcases first with ⟨count, candidate, reached, declared, first⟩
          dsimp only at found
          split at found
          · cases found
          · rename_i differs
            exact .changed owned known reached declared first (Bool.eq_false_of_not_eq_true differs)
        · rename_i nowhere
          rw [List.findSome?_eq_none_iff] at nowhere
          split at found
          · cases found
          · rename_i ended
            rw [Bool.not_eq_true, continues_ancestry_iff acyclic held] at ended
            refine .undeclared owned known (fun count candidate reached => nowhere candidate ?_) ended
            rw [← getElem?_ancestry acyclic held] at reached
            exact List.mem_of_getElem? reached

theorem breakage_of_broken (acyclic : host.Acyclic) (broken : sought.Broken host) :
    sought.breakage host missing changed ≠ none := by
  unfold Sought.breakage Breakage.ofAncestry
  cases lost : Breakage.ofTypes host sought.types with
  | some breakage => exact Option.some_ne_none _
  | none =>
      rw [Breakage.ofTypes_eq_none_iff] at lost
      cases broken with
      | lost typeMem mention owned unknown => exact absurd ⟨owned, unknown⟩ (lost _ typeMem _ mention)
      | @undeclared definition owned found undeclared ended =>
          have held := HostTable.mem_known_of_find? found
          have nowhere : (sought.ancestry host definition).known.findSome? sought.declared? = none := by
            rw [List.findSome?_eq_none_iff]
            intro candidate candidateMem
            rcases List.mem_iff_getElem?.mp candidateMem with ⟨count, reached⟩
            exact undeclared count candidate (by rwa [getElem?_ancestry acyclic held] at reached)
          rw [← continues_ancestry_iff acyclic held] at ended
          simp [owned, found, nowhere, ended]
      | @changed definition candidate count live owned found reached declared first differs =>
          have held := HostTable.mem_known_of_find? found
          have there : (sought.ancestry host definition).known.findSome? sought.declared? = some live := by
            rw [findSome?_eq_some_iff_getElem?]
            simp only [getElem?_ancestry acyclic held]
            exact ⟨_, _, reached, declared, first⟩
          simp [owned, found, there, differs]

/-- Something is found to be broken about a reference exactly if it is broken. -/
theorem breakage_eq_none_iff (acyclic : host.Acyclic) :
    sought.breakage host missing changed = none ↔ ¬ sought.Broken host := by
  constructor
  · exact fun nothing broken => breakage_of_broken acyclic broken nothing
  · intro sound
    rw [Option.eq_none_iff_forall_ne_some]
    exact fun breakage found => sound (broken_of_breakage acyclic found)

end Sought

namespace Breakage

variable {host : HostTable}

/-- Looking for a member and then at its type is looking for the type. -/
theorem ofAncestry_map {Member : Type} (ancestry : Ancestry) (declared : HostDefinition → Option Member)
    (memberType : Member → HostType) (missing : Breakage) (changed : HostType → Option Breakage) :
    ofAncestry ancestry (fun definition => (declared definition).map memberType) missing changed =
      ofAncestry ancestry declared missing fun member => changed (memberType member) := by
  have first : ancestry.known.findSome? (fun definition => (declared definition).map memberType) =
      (ancestry.known.findSome? declared).map memberType := List.map_findSome?.symm
  rw [ofAncestry, ofAncestry, first]
  cases ancestry.known.findSome? declared with
  | none => rfl
  | some member => rfl

section Members

variable {Member : Type} {declaringType : TypeRef} {definition : HostDefinition}
  {declared : HostDefinition → Option Member}

theorem ofMember_of_unknown (unknown : host.find? declaringType = none) (lookup : HostDefinition → Lookup)
    (missing : Breakage) (changed : Member → Option Breakage) :
    ofMember host declaringType lookup declared missing changed = none := by
  rw [ofMember, unknown]
  rfl

/-- What was found once is found again, so a lookup in an ancestry and the way to the first member are one search in the
ancestry. -/
theorem ofMember_of_lookup (known : host.find? declaringType = some definition) {lookup : HostDefinition → Lookup}
    {ancestry : Ancestry} (looked : lookup definition = ancestry.lookup fun definition => (declared definition).isSome)
    (again : lookup definition = .found → host.first? declared definition = ancestry.known.findSome? declared)
    (missing : Breakage) (changed : Member → Option Breakage) :
    ofMember host declaringType lookup declared missing changed = ofAncestry ancestry declared missing changed := by
  rw [ofMember, known, Option.map_some, ofAncestry]
  cases search : ancestry.known.findSome? declared with
  | some member =>
      have declares : ancestry.known.any (fun definition => (declared definition).isSome) = true := by
        rw [← List.isSome_findSome?, search, Option.isSome_some]
      have found : lookup definition = .found := by
        rw [looked, Ancestry.lookup, if_pos declares]
      rw [found, Option.bind_some, again found, search]
  | none =>
      have undeclared : ancestry.known.any (fun definition => (declared definition).isSome) = false := by
        rw [← List.isSome_findSome?, search, Option.isSome_none]
      rw [looked, Ancestry.lookup, undeclared, if_neg Bool.false_ne_true]
      cases ancestry.continues <;> rfl

theorem ofMember_eq (known : host.find? declaringType = some definition) (missing : Breakage)
    (changed : Member → Option Breakage) :
    ofMember host declaringType (host.lookup fun definition => (declared definition).isSome) declared missing changed =
      ofAncestry (host.ancestry definition) declared missing changed :=
  ofMember_of_lookup known (host.lookup_eq _ definition) HostTable.first?_of_lookup missing changed

end Members

/-! ## Methods and fields -/

theorem isSome_find?_callables (definition : HostDefinition) (reference : MethodRef) :
    ((definition.callables reference.name).find? (·.hasSignature reference)).isSome =
      definition.declares reference := by
  rw [List.isSome_find?, HostDefinition.declares]

theorem ancestry_sought (reference : MethodRef) (definition : HostDefinition) :
    reference.sought.ancestry host definition =
      if reference.isConstructor then ⟨[definition], false⟩ else host.ancestry definition := by
  unfold Sought.ancestry MethodRef.sought
  cases reference.isConstructor with
  | true => rfl
  | false => rfl

/-- What the type declares itself is first, so no base is asked for a constructor again. -/
theorem first?_of_declared {Member : Type} {declared : HostDefinition → Option Member} {definition : HostDefinition}
    {member : Member} (here : declared definition = some member) : host.first? declared definition = some member := by
  unfold HostTable.first?
  cases host.size with
  | zero => exact here
  | succ limit => rw [HostTable.firstWithin, here]

theorem lookupMethod_eq (reference : MethodRef) (definition : HostDefinition) :
    lookupMethod host reference definition =
      (reference.sought.ancestry host definition).lookup (·.declares reference) := by
  rw [ancestry_sought, lookupMethod]
  cases reference.isConstructor with
  | true => simp [Ancestry.lookup]
  | false => exact host.lookup_eq _ definition

/-- The live method that a lookup has found, a constructor or another. -/
theorem first?_of_lookupMethod {reference : MethodRef} {definition : HostDefinition}
    (found : lookupMethod host reference definition = .found) :
    host.first? (fun definition => (definition.callables reference.name).find? (·.hasSignature reference)) definition =
      (reference.sought.ancestry host definition).known.findSome? fun definition =>
        (definition.callables reference.name).find? (·.hasSignature reference) := by
  rw [ancestry_sought]
  unfold lookupMethod at found
  simp only [← isSome_find?_callables] at found
  cases isConstructor : reference.isConstructor with
  | true =>
      rw [isConstructor, if_pos rfl] at found
      split at found
      · rename_i declared
        rcases Option.isSome_iff_exists.mp declared with ⟨live, here⟩
        rw [first?_of_declared here, if_pos rfl, List.findSome?_singleton, here]
      · cases found
  | false =>
      rw [isConstructor, if_neg Bool.false_ne_true] at found
      exact HostTable.first?_of_lookup found

theorem ofMethod_eq (reference : MethodRef) :
    ofMethod host reference =
      reference.sought.breakage host (.missingMethod reference) (.otherReturnType reference) := by
  unfold ofMethod Sought.breakage
  simp only [MethodRef.sought, ofAncestry_map]
  cases ofTypes host _ with
  | some breakage => rfl
  | none =>
      cases host.owns reference.declaringType with
      | false => rfl
      | true =>
          cases known : host.find? reference.declaringType with
          | none => exact ofMember_of_unknown known _ _ _
          | some definition =>
              have looked : lookupMethod host reference definition =
                  (reference.sought.ancestry host definition).lookup fun definition =>
                    ((definition.callables reference.name).find? (·.hasSignature reference)).isSome := by
                simp only [lookupMethod_eq, isSome_find?_callables]
              exact ofMember_of_lookup known looked first?_of_lookupMethod _ _

theorem ofField_eq (reference : FieldRef) :
    ofField host reference =
      reference.sought.breakage host (.missingField reference) (.otherFieldType reference) := by
  unfold ofField Sought.breakage
  simp only [FieldRef.sought, ofAncestry_map]
  cases ofTypes host _ with
  | some breakage => rfl
  | none =>
      cases host.owns reference.declaringType with
      | false => rfl
      | true =>
          cases known : host.find? reference.declaringType with
          | none => exact ofMember_of_unknown known _ _ _
          | some definition => exact ofMember_eq known _ _

/-- Whatever operand a reference is in, what is broken about it is what is broken about the member sought. -/
theorem exists_ofOperand_eq {operand : Operand} {sought : Sought} (seeks : operand.sought? = some sought) :
    ∃ missing changed, ofOperand host operand = sought.breakage host missing changed := by
  unfold Operand.sought? at seeks
  split at seeks <;> cases seeks
  · exact ⟨_, _, ofMethod_eq _⟩
  · exact ⟨_, _, ofMethod_eq _⟩
  · exact ⟨_, _, ofField_eq _⟩
  · exact ⟨_, _, ofField_eq _⟩

theorem ofOperand_eq_none_iff (acyclic : host.Acyclic) {operand : Operand} {sought : Sought}
    (seeks : operand.sought? = some sought) : ofOperand host operand = none ↔ ¬ sought.Broken host := by
  rcases exists_ofOperand_eq seeks with ⟨missing, changed, same⟩
  rw [same]
  exact Sought.breakage_eq_none_iff acyclic

/-! ## What the rule reports -/

/-- Reporting breakage changes no body, and what it answers rests on operands alone. -/
theorem apply_eq (context : RuleContext) (body : Body) (place : Nat) :
    Rule.reportBreakage.apply context body place =
      .ok (((body.instructions.map Instruction.operand)[place]?.bind (ofOperand context.host)).map .incompatible,
        body) := by
  unfold Rule.apply
  rw [List.getElem?_map]
  cases body.instructions[place]? with
  | none => rfl
  | some instruction =>
      simp only [Option.bind_some, Option.map_some, Rule.judge, judge]
      cases ofOperand context.host instruction.operand with
      | none => rfl
      | some breakage => rfl

section Reports

variable {context : RuleContext} {body : Body} {place : Nat} {instruction : Instruction}

theorem apply_of_stands (stands : body.instructions[place]? = some instruction) :
    Rule.reportBreakage.apply context body place =
      .ok ((ofOperand context.host instruction.operand).map .incompatible, body) := by
  rw [apply_eq, List.getElem?_map, stands, Option.map_some, Option.bind_some]

theorem unreported_iff (stands : body.instructions[place]? = some instruction) :
    Rule.reportBreakage.apply context body place = .ok (none, body) ↔
      ofOperand context.host instruction.operand = none := by
  rw [apply_of_stands stands, Except.ok.injEq, Prod.mk.injEq, Option.map_eq_none_iff, and_iff_left rfl]

theorem reported_iff (stands : body.instructions[place]? = some instruction) :
    (∃ breakage, Rule.reportBreakage.apply context body place = .ok (some (.incompatible breakage), body)) ↔
      ofOperand context.host instruction.operand ≠ none := by
  rw [apply_of_stands stands]
  cases ofOperand context.host instruction.operand <;> simp

end Reports

/-- Where no type is met again on its own way up, the reference to a member in an instruction is reported exactly if it
is broken, and else the instruction is left alone. -/
theorem reported_iff_broken (context : RuleContext) (acyclic : context.host.Acyclic) (body : Body) (place : Nat)
    {instruction : Instruction} {sought : Sought} (stands : body.instructions[place]? = some instruction)
    (seeks : instruction.operand.sought? = some sought) :
    ((∃ breakage, Rule.reportBreakage.apply context body place = .ok (some (.incompatible breakage), body)) ↔
        sought.Broken context.host) ∧
      (Rule.reportBreakage.apply context body place = .ok (none, body) ↔ ¬ sought.Broken context.host) := by
  rw [reported_iff stands, unreported_iff stands, ne_eq, ofOperand_eq_none_iff acyclic seeks, not_not]
  exact ⟨Iff.rfl, Iff.rfl⟩

/-- A call of a method that animals inherit from characters, with what it is taken to return. -/
def tileCall (returnType : HostType) : MethodRef :=
  ⟨Game.farmAnimalType.reference, "getTileX", returnType.reference, [], true, []⟩

theorem reported_iff_broken_tileCall :
    Game.table.Acyclic ∧ (tileCall .int64).sought.Broken Game.table ∧ ¬ (tileCall .int32).sought.Broken Game.table := by
  have acyclic : Game.table.Acyclic := by decide +kernel
  let context : RuleContext := ⟨Game.table, .empty, .strict⟩
  let calls : Body := .ofInstructions
    [.unplaced .callvirt (.method (tileCall .int64)), .unplaced .callvirt (.method (tileCall .int32))]
  have other := reported_iff_broken context acyclic calls 0 rfl rfl
  have same := reported_iff_broken context acyclic calls 1 rfl rfl
  refine ⟨acyclic, other.1.mp ⟨.otherReturnType (tileCall .int64) .int32, ?_⟩, same.2.mp ?_⟩
  · decide +kernel
  · decide +kernel

end Breakage

end CilRelink
