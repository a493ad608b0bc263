import CilRelink.Error
import CilRelink.Game.Objects
import CilRelink.Host.Binding

/-!
# Facades

A facade stands in for a type of the host that lost members. References to the lost members, and to constructors,
are redirected to the facade, which wraps an object of the current type and serves the lost members from it. Nobody
constructs a facade in its own right: its declared constructor always fails, and instances come from wrapping.

Operations on an object return what it has become beside their result, so that a caller sees the object also after
an error.
-/
namespace CilRelink

open Game (WorldDate FarmAnimal)
open Text (Outline)

/-- Facades are linked from this assembly. -/
def Facade.assemblyName : String := "CilCompat"

/-- Facades are declared in this namespace. -/
def Facade.dottedNamespace : String := "CilCompat.Facades"

/-- An object that code may hold: a date or an animal, plain or wrapped in its facade, or something else. -/
inductive GameObject where
  | worldDate (date : WorldDate)
  | worldDateFacade (date : WorldDate)
  | farmAnimal (animal : FarmAnimal)
  | farmAnimalFacade (animal : FarmAnimal)
  | int32 (value : Int32)
deriving DecidableEq

/-- The object inside a facade; any other object is itself. -/
def GameObject.unwrapped : GameObject → GameObject
  | worldDateFacade date => .worldDate date
  | farmAnimalFacade animal => .farmAnimal animal
  | other => other

/-- The types of the host that facades can wrap. -/
inductive FacadeBase where
  | worldDate
  | farmAnimal
deriving DecidableEq

namespace FacadeBase

/-- The name of the type. -/
def typeName : FacadeBase → String
  | worldDate => "WorldDate"
  | farmAnimal => "FarmAnimal"

/-- The name of the facade that wraps the type. -/
def facadeName : FacadeBase → String
  | worldDate => "WorldDateFacade"
  | farmAnimal => "FarmAnimalFacade"

/-- Constructs an object of the type from arguments of one of its constructors. -/
def construct (base : FacadeBase) (arguments : List HostValue) : Except Error GameObject :=
  match base, arguments with
  | worldDate, [] => .ok (.worldDate .first)
  | worldDate, [.int32 year, .string season, .int32 day] => .ok (.worldDate ⟨year, season, day⟩)
  | farmAnimal, [] => .ok (.farmAnimal (.newborn "" none))
  | farmAnimal, [.string kind, .int64 _, .int64 _] => .ok (.farmAnimal (.newborn kind none))
  | _, _ => .error (.facade (.baseArguments base.typeName arguments.length))

/-- Wraps an object of the type. -/
def wrap (base : FacadeBase) (object : GameObject) : Except Error GameObject :=
  match base, object with
  | worldDate, .worldDate date => .ok (.worldDateFacade date)
  | farmAnimal, .farmAnimal animal => .ok (.farmAnimalFacade animal)
  | _, _ => .error (.facade (.substitution base.facadeName))

/-- What the declared constructor of the facade does. -/
def constructDeclared (base : FacadeBase) : Except Error GameObject := .error (.facadeConstructed base.facadeName)

end FacadeBase

/-- What a call to a facade's member does: its result, and what the receiver has become. -/
abbrev Dispatch := GameObject → List HostValue → Except Error (Option HostValue) × GameObject

/-- A lost member: its signature, as old code refers to it, and what a call to it does. -/
structure FacadeMember where
  method : HostMethod
  invoke : Dispatch

/-- A facade: its type, the type it stands in for, the constructors it takes over, the lost members it serves, and
what it wraps. -/
structure Facade where
  type : HostType
  replaces : HostType
  constructors : List HostMethod
  members : List FacadeMember
  base : FacadeBase

namespace Facade

/-- The type of the facade with a given name. -/
def typeNamed (name : String) : HostType := (HostType.simple dottedNamespace name).inAssembly assemblyName

/-- The facade without members that wraps `base`, which the host currently defines as `definition`. -/
def wrapping (base : FacadeBase) (definition : HostDefinition) : Facade :=
  ⟨typeNamed base.facadeName, definition.type, definition.constructors, [], base⟩

/-- Adds a lost member. -/
def withMember (facade : Facade) (method : HostMethod) (invoke : Dispatch) : Facade :=
  { facade with members := facade.members ++ [⟨method, invoke⟩] }

/-- The facade as a live type that derives from the type it stands in for. -/
def definition (facade : Facade) : HostDefinition :=
  { type := facade.type
    base := some facade.replaces
    constructors := facade.constructors
    methods := facade.members.map FacadeMember.method
    fields := []
    properties := [] }

/-- The lost member that a reference means. What it returns has to agree too, because that may be all that tells a
lost member from a current one. -/
def findMember? (facade : Facade) (reference : MethodRef) : Option FacadeMember :=
  facade.members.find? fun member =>
    member.method.hasSignature reference && member.method.returnType.isDenotedBy reference.returnType

/-- The constructor that a reference means. -/
def findConstructor? (facade : Facade) (reference : MethodRef) : Option HostMethod :=
  if reference.isConstructor then facade.constructors.find? (·.hasSignature reference) else none

/-- What the facade offers in place of a reference. -/
def retarget? (facade : Facade) (reference : MethodRef) : Option MethodRef :=
  let method :=
    if reference.isConstructor then facade.findConstructor? reference
    else (facade.findMember? reference).map FacadeMember.method
  method.map (·.reference facade.type)

/-- Calls a lost member. -/
def invoke (facade : Facade) (reference : MethodRef) (receiver : GameObject) (arguments : List HostValue) :
    Except Error (Option HostValue) × GameObject :=
  match facade.findMember? reference with
  | none => (.error (.facade (.noMember facade.type reference)), receiver)
  | some member =>
    if arguments.length ≠ member.method.parameters.length then
      (.error (.facade (.argumentCount reference member.method.parameters.length arguments.length)), receiver)
    else member.invoke receiver arguments

/-- Wraps an object. -/
def wrap (facade : Facade) (object : GameObject) : Except Error GameObject := facade.base.wrap object

/-- Constructs an object of the type the facade stands in for and wraps it. -/
def construct (facade : Facade) (reference : MethodRef) (arguments : List HostValue) : Except Error GameObject :=
  match facade.findConstructor? reference with
  | none => .error (.facade (.noConstructor facade.type reference))
  | some _ => do facade.wrap (← facade.base.construct arguments)

/-- What the declared constructor of the facade does. -/
def constructDeclared (facade : Facade) : Except Error GameObject := facade.base.constructDeclared

/-- The facade in outlines of values. -/
def outline (facade : Facade) : Outline :=
  .someFields "FacadeType"
    [("ty", facade.type.outline), ("replaces", facade.replaces.outline),
      ("constructors", .listOf HostMethod.outline facade.constructors),
      ("members",
        .listOf (fun member => .someFields "FacadeMember" [("method", member.method.outline)]) facade.members)]

end Facade

end CilRelink
