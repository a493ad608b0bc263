import CilRelink.Host.Table

/-!
# Definitions of the game's types

What the current game offers to compiled code, as far as the shipped facades adapt it.
-/
namespace CilRelink.Game

open HostMethod (plain constructor)

/-- The assembly of the game. -/
def assemblyName : String := "Stardew Valley"

/-- The namespace of the game's own types. -/
def coreNamespace : String := "StardewValley"

/-- A type of the game itself. -/
def coreType (name : String) : HostType := (HostType.simple coreNamespace name).inAssembly assemblyName

/-- The type of dates. -/
def worldDateType : HostType := coreType "WorldDate"

/-- The type of everyone who walks about. -/
def characterType : HostType := coreType "Character"

/-- The type of animals. -/
def farmAnimalType : HostType := coreType "FarmAnimal"

/-- The type of farms. -/
def farmType : HostType := coreType "Farm"

/-- The type of seasons. -/
def seasonType : HostType := coreType "Season"

/-- The type of what is known about an animal's species. -/
def farmAnimalDataType : HostType :=
  (HostType.simple "StardewValley.GameData.FarmAnimals" "FarmAnimalData").inAssembly "StardewValley.GameData"

/-- What dates offer: the season is an enumeration, and a key besides. -/
def worldDate : HostDefinition :=
  (HostDefinition.empty worldDateType).withBase .object
    |>.withConstructor constructor
    |>.withConstructor
      (constructor.withParameter "year" .int32 |>.withParameter "season" .string |>.withParameter "dayOfMonth" .int32)
    |>.withConstructor
      (constructor.withParameter "year" .int32 |>.withParameter "season" seasonType
        |>.withParameter "dayOfMonth" .int32)
    |>.withProperty "Year" .int32 true true
    |>.withProperty "SeasonKey" .string true true
    |>.withProperty "Season" seasonType true true
    |>.withProperty "DayOfMonth" .int32 true true
    |>.withProperty "TotalDays" .int32 true true

/-- What characters offer. -/
def character : HostDefinition :=
  (HostDefinition.empty characterType).withBase .object
    |>.withConstructor constructor
    |>.withProperty "Name" .string true true
    |>.withMethod (plain "getTileX" .int32)
    |>.withMethod (plain "getTileY" .int32)

/-- What animals offer: going home takes no arguments, and where a species lives is told by its data. -/
def farmAnimal : HostDefinition :=
  (HostDefinition.empty farmAnimalType).withBase characterType
    |>.withConstructor constructor
    |>.withConstructor
      (constructor.withParameter "type" .string |>.withParameter "id" .int64 |>.withParameter "ownerID" .int64)
    |>.withMethod (plain "GetAnimalData" farmAnimalDataType)
    |>.withMethod (plain "warpHome" .void)
    |>.withMethod (plain "isMale" .boolean)
    |>.withField ⟨"myID", coreType "NetLong", false, none⟩

/-- What farms offer; their base is a type of the game that is not described here. -/
def farm : HostDefinition :=
  (HostDefinition.empty farmType).withBase (coreType "BuildableGameLocation")
    |>.withConstructor constructor
    |>.withConstructor (constructor.withParameter "mapPath" .string |>.withParameter "name" .string)

/-- What seasons offer. -/
def season : HostDefinition := .empty seasonType

/-- What is known about a species. -/
def farmAnimalData : HostDefinition :=
  (HostDefinition.empty farmAnimalDataType).withField ⟨"House", .string, false, none⟩

/-- The table of the game's types. -/
def table : HostTable :=
  (HostTable.empty.registerAll [worldDate, character, farmAnimal, farm, season, farmAnimalData]).2

end CilRelink.Game
