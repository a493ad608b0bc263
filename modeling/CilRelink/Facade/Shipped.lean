import CilRelink.Facade.Basic
import CilRelink.Game.Definitions

/-!
# The shipped facades

Dates once had a season that was a string; it is the season key now. Animals once knew whether they live in a coop,
and went home with two arguments that do not matter; both are served by their current members. A member accepts a
plain object as well as a wrapped one, because code passes whatever it holds.
-/
namespace CilRelink.Facade

open Game (WorldDate FarmAnimal)
open HostMethod (plain)

/-- Does something to a date, plain or wrapped. -/
def onDate (act : WorldDate → Option HostValue × WorldDate) (receiver : GameObject) :
    Except Error (Option HostValue) × GameObject :=
  match receiver with
  | .worldDate date => (.ok (act date).1, .worldDate (act date).2)
  | .worldDateFacade date => (.ok (act date).1, .worldDateFacade (act date).2)
  | other => (.error (.facade (.receiver FacadeBase.worldDate.facadeName)), other)

/-- Does something to an animal, plain or wrapped. -/
def onAnimal (act : FarmAnimal → Option HostValue × FarmAnimal) (receiver : GameObject) :
    Except Error (Option HostValue) × GameObject :=
  match receiver with
  | .farmAnimal animal => (.ok (act animal).1, .farmAnimal (act animal).2)
  | .farmAnimalFacade animal => (.ok (act animal).1, .farmAnimalFacade (act animal).2)
  | other => (.error (.facade (.receiver FacadeBase.farmAnimal.facadeName)), other)

/-- Reads the season of a date as a string. -/
def getSeason : Dispatch := fun receiver _ => onDate (fun date => (some (.string date.seasonKey), date)) receiver

/-- Writes the season of a date as a string. -/
def setSeason : Dispatch := fun receiver arguments =>
  match (arguments[0]?).bind HostValue.asString with
  | none => (.error (.facade (.stringArgument "set_Season" 0)), receiver)
  | some key => onDate (fun date => (none, date.withSeasonKey key)) receiver

/-- Tells whether an animal lives in a coop. -/
def isCoopDweller : Dispatch := fun receiver _ =>
  onAnimal (fun animal => (some (.boolean animal.isCoopDweller), animal)) receiver

/-- Sends an animal home. -/
def warpHome : Dispatch := fun receiver _ => onAnimal (fun animal => (none, animal.warpedHome)) receiver

/-- The facade over dates. -/
def worldDate : Facade :=
  (wrapping .worldDate Game.worldDate)
    |>.withMember (plain "get_Season" .string) getSeason
    |>.withMember ((plain "set_Season" .void).withParameter "value" .string) setSeason

/-- The facade over animals. -/
def farmAnimal : Facade :=
  (wrapping .farmAnimal Game.farmAnimal)
    |>.withMember (plain "isCoopDweller" .boolean) isCoopDweller
    |>.withMember
      ((plain "warpHome" .void).withParameter "f" Game.farmType |>.withParameter "a" Game.farmAnimalType) warpHome

end CilRelink.Facade
