import CilRelink.Host.Value

/-!
# Objects of the game

The dates and animals of the host game, with their current members.
-/
namespace CilRelink.Game

/-- A season of the calendar. -/
inductive Season where
  | spring
  | summer
  | fall
  | winter
deriving DecidableEq

namespace Season

/-- The key of the season. -/
def key : Season → String
  | spring => "spring"
  | summer => "summer"
  | fall => "fall"
  | winter => "winter"

/-- Every season, in the order of the year. -/
def all : List Season := [spring, summer, fall, winter]

/-- The season with a given key. -/
def ofKey? (key : String) : Option Season := all.find? (·.key = key)

end Season

/-- A date. The season is kept as a key, which need not name a season. -/
structure WorldDate where
  year : Int32
  seasonKey : String
  dayOfMonth : Int32
deriving DecidableEq

namespace WorldDate

/-- The first day of the calendar. -/
def first : WorldDate := ⟨1, Season.spring.key, 1⟩

/-- The season, if the key names one. -/
def season? (date : WorldDate) : Option Season := Season.ofKey? date.seasonKey

/-- The date with another season key. -/
def withSeasonKey (date : WorldDate) (key : String) : WorldDate := { date with seasonKey := key }

/-- The date in another season. -/
def withSeason (date : WorldDate) (season : Season) : WorldDate := date.withSeasonKey season.key

end WorldDate

/-- An animal. `house` is the kind of building its species lives in, if the species is known. -/
structure FarmAnimal where
  name : String
  house : Option String
  home : Option String
  location : Option String
deriving DecidableEq

namespace FarmAnimal

/-- The building that coop dwellers live in. -/
def coop : String := "Coop"

/-- An animal without a home that is nowhere. -/
def newborn (name : String) (house : Option String) : FarmAnimal := ⟨name, house, none, none⟩

/-- Whether the animal's species lives in a coop. -/
def isCoopDweller (animal : FarmAnimal) : Bool := animal.house = some coop

/-- The animal back in its home. -/
def warpedHome (animal : FarmAnimal) : FarmAnimal := { animal with location := animal.home }

end FarmAnimal

end CilRelink.Game
