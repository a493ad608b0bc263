import CilRelink.Facade.Shipped
import CilRelink.Host.Table

/-!
# The registry of facades

Facades are found by the type they stand in for, when references are redirected, and by their own type, when a
redirected reference is called.
-/
namespace CilRelink

/-- The registered facades, under the definition names of both types. -/
structure FacadeRegistry where
  byReplaced : Dictionary String Facade
  byType : Dictionary String Facade

namespace FacadeRegistry

/-- The registry without facades. -/
def empty : FacadeRegistry := ⟨.empty, .empty⟩

/-- Registers a facade in place of any other for either type. If one of the types has no definition name, the facade
is refused. -/
def insert (registry : FacadeRegistry) (facade : Facade) : Registration FacadeRegistry :=
  match facade.replaces.definitionName, facade.type.definitionName with
  | some replaced, some name =>
    ⟨true, ⟨registry.byReplaced.insert replaced facade, registry.byType.insert name facade⟩, []⟩
  | _, _ =>
    ⟨false, registry,
      [⟨.warn, s!"facade {facade.type.text} over {facade.replaces.text} cannot be keyed, not registered"⟩]⟩

/-- Registers facades one after the other. -/
def insertAll (registry : FacadeRegistry) : List Facade → List LogRecord × FacadeRegistry
  | [] => ([], registry)
  | facade :: facades =>
    let registration := registry.insert facade
    let (log, full) := registration.table.insertAll facades
    (registration.log ++ log, full)

/-- The registry of the shipped facades. -/
def shipped : FacadeRegistry := (empty.insertAll [.worldDate, .farmAnimal]).2

/-- The facade that stands in for a type. -/
def forReplaced? (registry : FacadeRegistry) (type : TypeRef) : Option Facade :=
  type.definitionName.bind registry.byReplaced.find?

/-- The facade of a type. -/
def find? (registry : FacadeRegistry) (type : TypeRef) : Option Facade :=
  type.definitionName.bind registry.byType.find?

/-- Whether a type is that of a registered facade. -/
def isFacade (registry : FacadeRegistry) (type : TypeRef) : Bool := (registry.find? type).isSome

/-- The number of types of facades. -/
def size (registry : FacadeRegistry) : Nat := registry.byType.size

/-- The facade that declares a method. -/
def declaring (registry : FacadeRegistry) (method : MethodRef) : Except Error Facade :=
  match registry.find? method.declaringType with
  | some facade => .ok facade
  | none => .error (.facade (.notFacade method.declaringType))

/-- Calls a member of a registered facade. -/
def invoke (registry : FacadeRegistry) (method : MethodRef) (receiver : GameObject) (arguments : List HostValue) :
    Except Error (Option HostValue) × GameObject :=
  match registry.declaring method with
  | .error error => (.error error, receiver)
  | .ok facade => facade.invoke method receiver arguments

/-- Constructs an instance of a registered facade. -/
def construct (registry : FacadeRegistry) (method : MethodRef) (arguments : List HostValue) :
    Except Error GameObject := do
  (← registry.declaring method).construct method arguments

end FacadeRegistry

end CilRelink
