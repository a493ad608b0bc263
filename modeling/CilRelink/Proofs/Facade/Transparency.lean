import CilRelink.Proofs.Facade.Dispatch

/-!
# Facades are transparent

A member of a facade does to the object inside what it does to the object on its own, and leaves alone what it
rejects. So calls one after the other come to the same for an object and for the facade around it, and taking the
facade off at the end leaves what has become of the object. Of a date nothing changes but the season, which is what was
last written to it; of an animal nothing changes but where it is.
-/

namespace CilRelink

open Game (WorldDate FarmAnimal)

/-- The date that an object is or wraps. -/
def GameObject.date? : GameObject → Option WorldDate
  | worldDate date | worldDateFacade date => some date
  | _ => none

/-- The animal that an object is or wraps. -/
def GameObject.animal? : GameObject → Option FarmAnimal
  | farmAnimal animal | farmAnimalFacade animal => some animal
  | _ => none

/-- Whether an object is of the type, wrapped or not. -/
def FacadeBase.holds : FacadeBase → GameObject → Bool
  | worldDate, object => object.date?.isSome
  | farmAnimal, object => object.animal?.isSome

theorem FacadeBase.unwrapped_of_wrap {base : FacadeBase} {object wrapped : GameObject}
    (wraps : base.wrap object = .ok wrapped) : wrapped.unwrapped = object := by
  cases base <;> cases object <;> cases wraps <;> rfl

/-! ## What members have in common -/

/-- Whether something that is done to objects comes to the same for an object and for the facade around it, and
refuses and leaves alone all other objects. -/
structure FacadeBase.Serves (base : FacadeBase)
    (act : GameObject → Except Error (Option HostValue) × GameObject) : Prop where
  alike {object wrapped : GameObject} (wraps : base.wrap object = .ok wrapped) :
    (act wrapped).1 = (act object).1 ∧ base.wrap (act object).2 = .ok (act wrapped).2
  spares {receiver after : GameObject} {error : Error} (fails : act receiver = (.error error, after)) :
    after = receiver
  rejects {receiver : GameObject} (other : base.holds receiver = false) :
    ∃ mismatch, act receiver = (.error (.facade mismatch), receiver)

namespace FacadeBase

theorem serves_refusal (base : FacadeBase) (mismatch : FacadeMismatch) :
    base.Serves fun receiver => (.error (.facade mismatch), receiver) where
  alike wraps := ⟨rfl, wraps⟩
  spares fails := by
    cases fails
    rfl
  rejects _ := ⟨mismatch, rfl⟩

theorem serves_onDate (act : WorldDate → Option HostValue × WorldDate) : worldDate.Serves (Facade.onDate act) where
  alike {object wrapped} wraps := by
    cases object <;> cases wraps
    exact ⟨rfl, rfl⟩
  spares {receiver after error} fails := by
    cases receiver <;> cases fails <;> rfl
  rejects {receiver} other := by
    cases receiver with
    | worldDate | worldDateFacade => cases other
    | _ => exact ⟨_, rfl⟩

theorem serves_onAnimal (act : FarmAnimal → Option HostValue × FarmAnimal) :
    farmAnimal.Serves (Facade.onAnimal act) where
  alike {object wrapped} wraps := by
    cases object <;> cases wraps
    exact ⟨rfl, rfl⟩
  spares {receiver after error} fails := by
    cases receiver <;> cases fails <;> rfl
  rejects {receiver} other := by
    cases receiver with
    | farmAnimal | farmAnimalFacade => cases other
    | _ => exact ⟨_, rfl⟩

end FacadeBase

namespace Facade

variable {facade : Facade}

/-- Whether every member serves an object in its facade as the object on its own. -/
def IsTransparent (facade : Facade) : Prop :=
  ∀ member ∈ facade.members, ∀ arguments, facade.base.Serves (member.invoke · arguments)

/-- A call is refused, or is what the member that the reference means does. -/
theorem invoke_cases (facade : Facade) (reference : MethodRef) (arguments : List HostValue) :
    (∃ mismatch, ∀ receiver, facade.invoke reference receiver arguments = (.error (.facade mismatch), receiver)) ∨
      ∃ member ∈ facade.members, facade.findMember? reference = some member ∧
        arguments.length = member.method.parameters.length ∧
        ∀ receiver, facade.invoke reference receiver arguments = member.invoke receiver arguments := by
  unfold invoke
  cases found : facade.findMember? reference with
  | none => exact .inl ⟨_, fun _ => rfl⟩
  | some member =>
      by_cases count : arguments.length = member.method.parameters.length
      · right
        refine ⟨member, List.mem_of_find?_eq_some found, rfl, count, ?_⟩
        intro receiver
        simp [count]
      · left
        refine ⟨.argumentCount reference member.method.parameters.length arguments.length, ?_⟩
        intro receiver
        simp [count]

/-- One step. -/
theorem IsTransparent.serves_invoke (transparent : facade.IsTransparent) (reference : MethodRef)
    (arguments : List HostValue) : facade.base.Serves (facade.invoke reference · arguments) := by
  rcases invoke_cases facade reference arguments with ⟨mismatch, refused⟩ | ⟨member, memberMem, _, _, invokes⟩
  · rw [show (facade.invoke reference · arguments) = _ from funext refused]
    exact FacadeBase.serves_refusal facade.base mismatch
  · rw [show (facade.invoke reference · arguments) = _ from funext invokes]
    exact transparent member memberMem arguments

end Facade

/-- A call of a member of a facade. -/
structure FacadeCall where
  reference : MethodRef
  arguments : List HostValue

namespace Facade

variable {facade : Facade} {calls : List FacadeCall} {receiver : GameObject}

/-- Calls one after the other: the result of each, and what the receiver has become. -/
def invokeAll (facade : Facade) :
    List FacadeCall → GameObject → List (Except Error (Option HostValue)) × GameObject
  | [], receiver => ([], receiver)
  | call :: calls, receiver =>
    let (result, after) := facade.invoke call.reference receiver call.arguments
    let (results, last) := facade.invokeAll calls after
    (result :: results, last)

/-- Any number of steps. -/
theorem IsTransparent.invokeAll_alike (transparent : facade.IsTransparent) {object wrapped : GameObject}
    (wraps : facade.wrap object = .ok wrapped) (calls : List FacadeCall) :
    (facade.invokeAll calls wrapped).1 = (facade.invokeAll calls object).1 ∧
      facade.wrap (facade.invokeAll calls object).2 = .ok (facade.invokeAll calls wrapped).2 := by
  induction calls generalizing object wrapped with
  | nil => exact ⟨rfl, wraps⟩
  | cons call calls ih =>
      rcases (transparent.serves_invoke call.reference call.arguments).alike wraps with ⟨sameResult, wrapsNext⟩
      rcases ih wrapsNext with ⟨sameResults, wrapsLast⟩
      simp only [invokeAll]
      exact ⟨List.cons_eq_cons.mpr ⟨sameResult, sameResults⟩, wrapsLast⟩

theorem IsTransparent.invokeAll_rejects (transparent : facade.IsTransparent)
    (other : facade.base.holds receiver = false) (calls : List FacadeCall) :
    (facade.invokeAll calls receiver).2 = receiver ∧
      ∀ result ∈ (facade.invokeAll calls receiver).1, ∃ mismatch, result = .error (.facade mismatch) := by
  induction calls with
  | nil => exact ⟨rfl, by simp [invokeAll]⟩
  | cons call calls ih =>
      rcases (transparent.serves_invoke call.reference call.arguments).rejects other with ⟨mismatch, rejected⟩
      simp only [invokeAll, rejected, List.forall_mem_cons]
      exact ⟨ih.1, ⟨mismatch, rfl⟩, ih.2⟩

/-- Whether a call is of the member with a given name. -/
def means (facade : Facade) (name : String) (call : FacadeCall) : Bool :=
  (facade.findMember? call.reference).any (·.method.name = name)

theorem exists_member_of_means {name : String} {call : FacadeCall} (means : facade.means name call = true) :
    ∃ member ∈ facade.members, facade.findMember? call.reference = some member ∧ member.method.name = name := by
  rcases (Option.any_eq_true _ _).mp means with ⟨member, found, named⟩
  exact ⟨member, List.mem_of_find?_eq_some found, found, of_decide_eq_true named⟩

theorem means_of_findMember? {member : FacadeMember} {call : FacadeCall} (name : String)
    (found : facade.findMember? call.reference = some member) :
    facade.means name call = decide (member.method.name = name) := by
  rw [means, found, Option.any_some]

theorem means_eq_false_of_means {name other : String} {call : FacadeCall} (means : facade.means name call = true)
    (different : name ≠ other) : facade.means other call = false := by
  rcases exists_member_of_means means with ⟨member, _, found, rfl⟩
  rw [means_of_findMember? other found]
  exact decide_eq_false different

/-- The member that a call means is what is called, for a shipped facade has no two members of one name. -/
theorem invoke_of_means (shippedFacade : facade ∈ shipped) {member : FacadeMember} (memberMem : member ∈ facade.members)
    {call : FacadeCall} (means : facade.means member.method.name call = true)
    (count : call.arguments.length = member.method.parameters.length) (receiver : GameObject) :
    facade.invoke call.reference receiver call.arguments = member.invoke receiver call.arguments := by
  have distinct : ∀ facade ∈ shipped, (facade.members.map (·.method.name)).Nodup := by decide +kernel
  rcases exists_member_of_means means with ⟨other, otherMem, found, named⟩
  cases List.inj_on_of_nodup_map (distinct facade shippedFacade) otherMem memberMem named
  exact invoke_of_findMember? found count

/-! ## Dates -/

section Dates

variable {call : FacadeCall} {date : WorldDate} {key : String}

theorem onDate_eq (act : WorldDate → Option HostValue × WorldDate) (isDate : receiver.date? = some date) :
    ∃ after, onDate act receiver = (.ok (act date).1, after) ∧ after.date? = some (act date).2 := by
  cases receiver <;> cases isDate <;> exact ⟨_, rfl, rfl⟩

/-- Reading from a date leaves it alone. -/
theorem onDate_read (read : WorldDate → HostValue) (isDate : receiver.date? = some date) :
    onDate (fun date => (some (read date), date)) receiver = (.ok (some (read date)), receiver) := by
  cases receiver <;> cases isDate <;> rfl

theorem members_worldDate : worldDate.members = [⟨.plain "get_Season" .string, getSeason⟩,
    ⟨(HostMethod.plain "set_Season" .void).withParameter "value" .string, setSeason⟩] := rfl

theorem isTransparent_worldDate : worldDate.IsTransparent := by
  have setter (arguments : List HostValue) : FacadeBase.worldDate.Serves (setSeason · arguments) := by
    unfold setSeason
    cases (arguments[0]?).bind HostValue.asString with
    | none => exact FacadeBase.serves_refusal _ _
    | some key => exact FacadeBase.serves_onDate _
  rw [IsTransparent, members_worldDate, List.forall_mem_cons, List.forall_mem_singleton]
  exact ⟨fun _ => FacadeBase.serves_onDate _, setter⟩

theorem invoke_getSeason (means : worldDate.means "get_Season" call = true) (arguments : call.arguments = [])
    (receiver : GameObject) :
    worldDate.invoke call.reference receiver call.arguments =
      onDate (fun date => (some (.string date.seasonKey), date)) receiver := by
  have memberMem : ⟨.plain "get_Season" .string, getSeason⟩ ∈ worldDate.members := List.mem_cons_self
  exact invoke_of_means List.mem_cons_self memberMem means (by rw [arguments]; rfl) receiver

theorem invoke_setSeason (means : worldDate.means "set_Season" call = true) (arguments : call.arguments = [.string key])
    (receiver : GameObject) :
    worldDate.invoke call.reference receiver call.arguments =
      onDate (fun date => (none, date.withSeasonKey key)) receiver := by
  have memberMem : ⟨(HostMethod.plain "set_Season" .void).withParameter "value" .string, setSeason⟩ ∈
      worldDate.members := List.mem_cons_of_mem _ List.mem_cons_self
  rw [invoke_of_means List.mem_cons_self memberMem means (by rw [arguments]; rfl) receiver, arguments]
  rfl

/-- All that a call can do to a date. -/
theorem worldDate_cases (call : FacadeCall) :
    (∃ mismatch, ∀ receiver,
      worldDate.invoke call.reference receiver call.arguments = (.error (.facade mismatch), receiver)) ∨
    (worldDate.means "get_Season" call = true ∧ call.arguments = []) ∨
    (worldDate.means "set_Season" call = true ∧ ∃ key, call.arguments = [.string key]) := by
  rcases invoke_cases worldDate call.reference call.arguments with refused | ⟨member, memberMem, found, count, invokes⟩
  · exact .inl refused
  · rw [members_worldDate] at memberMem
    rcases List.mem_pair.mp memberMem with rfl | rfl
    · right
      left
      exact ⟨means_of_findMember? _ found, List.eq_nil_of_length_eq_zero count⟩
    · rcases List.length_eq_one_iff.mp count with ⟨argument, arguments⟩
      cases text : argument.asString with
      | none =>
          left
          refine ⟨.stringArgument "set_Season" 0, ?_⟩
          intro receiver
          rw [invokes, arguments]
          simp [setSeason, text]
      | some key =>
          right
          right
          cases argument <;> cases text
          exact ⟨means_of_findMember? _ found, key, arguments⟩

/-- The season that a call has written, if it is one that writes a season and has succeeded. -/
def writtenSeason? (call : FacadeCall) (result : Except Error (Option HostValue)) : Option String :=
  if worldDate.means "set_Season" call && result.isOk then call.arguments.head?.bind HostValue.asString else none

theorem writtenSeason?_of_setSeason (means : worldDate.means "set_Season" call = true)
    (arguments : call.arguments = [.string key]) (value : Option HostValue) :
    writtenSeason? call (.ok value) = some key := by
  rw [writtenSeason?, means, arguments]
  rfl

theorem writtenSeason?_error (call : FacadeCall) (error : Error) : writtenSeason? call (.error error) = none := by
  simp [writtenSeason?, Except.isOk, Except.toBool]

theorem writtenSeason?_of_nil (arguments : call.arguments = []) (result : Except Error (Option HostValue)) :
    writtenSeason? call result = none := by
  simp [writtenSeason?, arguments]

/-- The season that was written last by calls with given results. -/
def lastSeason? (calls : List FacadeCall) (results : List (Except Error (Option HostValue))) : Option String :=
  ((List.zipWith writtenSeason? calls results).filterMap id).getLast?

theorem lastSeason?_cons (call : FacadeCall) (calls : List FacadeCall) (result : Except Error (Option HostValue))
    (results : List (Except Error (Option HostValue))) :
    lastSeason? (call :: calls) (result :: results) =
      (lastSeason? calls results).or (writtenSeason? call result) := by
  rw [lastSeason?, lastSeason?, List.zipWith_cons_cons, List.filterMap_cons]
  generalize (List.zipWith writtenSeason? calls results).filterMap id = later
  cases writtenSeason? call result with
  | none => exact Option.or_none.symm
  | some key =>
      rw [id_eq, List.getLast?_cons]
      cases later.getLast? <;> rfl

/-- One step: a call changes nothing of a date but the season, if it writes one. -/
theorem date?_invoke (isDate : receiver.date? = some date) (call : FacadeCall) :
    (worldDate.invoke call.reference receiver call.arguments).2.date? = some (date.withSeasonKey
      ((writtenSeason? call (worldDate.invoke call.reference receiver call.arguments).1).getD date.seasonKey)) := by
  rcases worldDate_cases call with ⟨mismatch, refused⟩ | ⟨means, arguments⟩ | ⟨means, key, arguments⟩
  · rw [refused]
    simp only [writtenSeason?_error, Option.getD_none]
    exact isDate
  · rw [invoke_getSeason means arguments, onDate_read (.string ·.seasonKey) isDate]
    simp only [writtenSeason?_of_nil arguments, Option.getD_none]
    exact isDate
  · rcases onDate_eq (fun date => (none, date.withSeasonKey key)) isDate with ⟨after, does, becomes⟩
    rw [invoke_setSeason means arguments, does]
    simp only [writtenSeason?_of_setSeason means arguments, Option.getD_some]
    exact becomes

/-- Any number of steps. -/
theorem date?_invokeAll (isDate : receiver.date? = some date) (calls : List FacadeCall) :
    (worldDate.invokeAll calls receiver).2.date? = some (date.withSeasonKey
      ((lastSeason? calls (worldDate.invokeAll calls receiver).1).getD date.seasonKey)) := by
  induction calls generalizing receiver date with
  | nil => exact isDate
  | cons call calls ih =>
      simp only [invokeAll]
      rw [ih (date?_invoke isDate call), lastSeason?_cons]
      cases lastSeason? calls _ <;> rfl

end Dates

/-! ## Animals -/

section Animals

variable {call : FacadeCall} {animal : FarmAnimal}

theorem onAnimal_eq (act : FarmAnimal → Option HostValue × FarmAnimal) (isAnimal : receiver.animal? = some animal) :
    ∃ after, onAnimal act receiver = (.ok (act animal).1, after) ∧ after.animal? = some (act animal).2 := by
  cases receiver <;> cases isAnimal <;> exact ⟨_, rfl, rfl⟩

/-- Reading from an animal leaves it alone. -/
theorem onAnimal_read (read : FarmAnimal → HostValue) (isAnimal : receiver.animal? = some animal) :
    onAnimal (fun animal => (some (read animal), animal)) receiver = (.ok (some (read animal)), receiver) := by
  cases receiver <;> cases isAnimal <;> rfl

theorem members_farmAnimal : farmAnimal.members = [⟨.plain "isCoopDweller" .boolean, isCoopDweller⟩,
    ⟨(HostMethod.plain "warpHome" .void).withParameter "f" Game.farmType |>.withParameter "a" Game.farmAnimalType,
      warpHome⟩] := rfl

theorem isTransparent_farmAnimal : farmAnimal.IsTransparent := by
  rw [IsTransparent, members_farmAnimal, List.forall_mem_cons, List.forall_mem_singleton]
  exact ⟨fun _ => FacadeBase.serves_onAnimal _, fun _ => FacadeBase.serves_onAnimal _⟩

theorem invoke_isCoopDweller (means : farmAnimal.means "isCoopDweller" call = true) (arguments : call.arguments = [])
    (receiver : GameObject) :
    farmAnimal.invoke call.reference receiver call.arguments =
      onAnimal (fun animal => (some (.boolean animal.isCoopDweller), animal)) receiver := by
  have memberMem : ⟨.plain "isCoopDweller" .boolean, isCoopDweller⟩ ∈ farmAnimal.members := List.mem_cons_self
  exact invoke_of_means (List.mem_cons_of_mem _ List.mem_cons_self) memberMem means (by rw [arguments]; rfl) receiver

theorem invoke_warpHome (means : farmAnimal.means "warpHome" call = true) (arguments : call.arguments.length = 2)
    (receiver : GameObject) :
    farmAnimal.invoke call.reference receiver call.arguments =
      onAnimal (fun animal => (none, animal.warpedHome)) receiver := by
  have memberMem : ⟨(HostMethod.plain "warpHome" .void).withParameter "f" Game.farmType
      |>.withParameter "a" Game.farmAnimalType, warpHome⟩ ∈ farmAnimal.members :=
    List.mem_cons_of_mem _ List.mem_cons_self
  exact invoke_of_means (List.mem_cons_of_mem _ List.mem_cons_self) memberMem means arguments receiver

/-- All that a call can do to an animal. -/
theorem farmAnimal_cases (call : FacadeCall) :
    (∃ mismatch, ∀ receiver,
      farmAnimal.invoke call.reference receiver call.arguments = (.error (.facade mismatch), receiver)) ∨
    (farmAnimal.means "isCoopDweller" call = true ∧ call.arguments = []) ∨
    (farmAnimal.means "warpHome" call = true ∧ call.arguments.length = 2) := by
  rcases invoke_cases farmAnimal call.reference call.arguments with refused | ⟨member, memberMem, found, count, _⟩
  · exact .inl refused
  · rw [members_farmAnimal] at memberMem
    right
    rcases List.mem_pair.mp memberMem with rfl | rfl
    · exact .inl ⟨means_of_findMember? _ found, List.eq_nil_of_length_eq_zero count⟩
    · exact .inr ⟨means_of_findMember? _ found, count⟩

/-- Whether a call has sent an animal home, which is to say it is one that does and has succeeded. -/
def hasSentHome (call : FacadeCall) (result : Except Error (Option HostValue)) : Bool :=
  farmAnimal.means "warpHome" call && result.isOk

/-- One step: a call changes nothing of an animal but where it is, if it sends it home. -/
theorem animal?_invoke (isAnimal : receiver.animal? = some animal) (call : FacadeCall) :
    (farmAnimal.invoke call.reference receiver call.arguments).2.animal? =
      some (if hasSentHome call (farmAnimal.invoke call.reference receiver call.arguments).1 then animal.warpedHome
        else animal) := by
  rcases farmAnimal_cases call with ⟨mismatch, refused⟩ | ⟨means, arguments⟩ | ⟨means, arguments⟩
  · rw [refused]
    simpa [hasSentHome, Except.isOk, Except.toBool] using isAnimal
  · have other : farmAnimal.means "warpHome" call = false := means_eq_false_of_means means (by decide)
    rw [invoke_isCoopDweller means arguments, onAnimal_read (.boolean ·.isCoopDweller) isAnimal]
    simpa [hasSentHome, other] using isAnimal
  · rcases onAnimal_eq (fun animal => (none, animal.warpedHome)) isAnimal with ⟨after, does, becomes⟩
    rw [invoke_warpHome means arguments, does]
    simpa [hasSentHome, means, Except.isOk, Except.toBool] using becomes

/-- Whether one of calls with given results has sent an animal home. -/
def haveSentHome (calls : List FacadeCall) (results : List (Except Error (Option HostValue))) : Bool :=
  (List.zipWith hasSentHome calls results).any id

/-- An animal that is sent home twice is where it was after the first time. -/
theorem warpedHome_again (first later : Bool) (animal : FarmAnimal) :
    (if later then (if first then animal.warpedHome else animal).warpedHome
      else if first then animal.warpedHome else animal) =
      if first || later then animal.warpedHome else animal := by
  cases first <;> cases later <;> rfl

/-- Any number of steps. -/
theorem animal?_invokeAll (isAnimal : receiver.animal? = some animal) (calls : List FacadeCall) :
    (farmAnimal.invokeAll calls receiver).2.animal? =
      some (if haveSentHome calls (farmAnimal.invokeAll calls receiver).1 then animal.warpedHome else animal) := by
  induction calls generalizing receiver animal with
  | nil => exact isAnimal
  | cons call calls ih =>
      simp only [invokeAll]
      rw [ih (animal?_invoke isAnimal call), warpedHome_again]
      rfl

end Animals

/-! ## Runs of calls -/

theorem isTransparent_of_shipped : ∀ facade ∈ shipped, facade.IsTransparent := by
  rw [shipped, List.forall_mem_cons, List.forall_mem_singleton]
  exact ⟨isTransparent_worldDate, isTransparent_farmAnimal⟩

/-- Whatever calls are made of the members of a shipped facade, they have the same results for an object and for the
facade around it, and make the same of the object. A call that fails leaves its receiver alone, and all calls fail on a
receiver of another type. A date has the season that was last written to it, which is also what is read, and is the same
otherwise; an animal is where it was or, once it has been sent home, at home, is the same otherwise, and is asked about
its species with the same answer at all times. -/
theorem shipped_facades_transparent :
    (∀ facade ∈ shipped, ∀ object wrapped, facade.wrap object = .ok wrapped → ∀ calls,
      (facade.invokeAll calls wrapped).1 = (facade.invokeAll calls object).1 ∧
        (facade.invokeAll calls wrapped).2.unwrapped = (facade.invokeAll calls object).2) ∧
    (∀ facade ∈ shipped, ∀ reference receiver arguments error after,
      facade.invoke reference receiver arguments = (.error error, after) → after = receiver) ∧
    (∀ facade ∈ shipped, ∀ receiver, facade.base.holds receiver = false → ∀ calls,
      (facade.invokeAll calls receiver).2 = receiver ∧
        ∀ result ∈ (facade.invokeAll calls receiver).1, ∃ mismatch, result = .error (.facade mismatch)) ∧
    (∀ receiver date, receiver.date? = some date → ∀ calls,
      let after := (worldDate.invokeAll calls receiver).2
      let season := (lastSeason? calls (worldDate.invokeAll calls receiver).1).getD date.seasonKey
      after.date? = some { date with seasonKey := season } ∧
        (∀ call, worldDate.means "get_Season" call = true → call.arguments = [] →
          worldDate.invoke call.reference after call.arguments = (.ok (some (.string season)), after)) ∧
        ∀ call key, worldDate.means "set_Season" call = true → call.arguments = [.string key] →
          (worldDate.invoke call.reference after call.arguments).1 = .ok none) ∧
    ∀ receiver animal, receiver.animal? = some animal → ∀ calls,
      let after := (farmAnimal.invokeAll calls receiver).2
      let sentHome := haveSentHome calls (farmAnimal.invokeAll calls receiver).1
      after.animal? = some { animal with location := if sentHome then animal.home else animal.location } ∧
        (∀ call, farmAnimal.means "isCoopDweller" call = true → call.arguments = [] →
          farmAnimal.invoke call.reference after call.arguments =
            (.ok (some (.boolean (animal.house = some "Coop"))), after)) ∧
        ∀ call, farmAnimal.means "warpHome" call = true → call.arguments.length = 2 →
          (farmAnimal.invoke call.reference after call.arguments).1 = .ok none := by
  refine ⟨?_, ?_, ?_, ?_, ?_⟩
  · intro facade facadeMem object wrapped wraps calls
    rcases (isTransparent_of_shipped facade facadeMem).invokeAll_alike wraps calls with ⟨sameResults, wrapsLast⟩
    exact ⟨sameResults, FacadeBase.unwrapped_of_wrap wrapsLast⟩
  · intro facade facadeMem reference receiver arguments error after fails
    exact ((isTransparent_of_shipped facade facadeMem).serves_invoke reference arguments).spares fails
  · intro facade facadeMem receiver other calls
    exact (isTransparent_of_shipped facade facadeMem).invokeAll_rejects other calls
  · intro receiver date isDate calls after season
    have becomes : after.date? = some { date with seasonKey := season } := date?_invokeAll isDate calls
    refine ⟨becomes, ?_, ?_⟩
    · intro call means arguments
      rw [invoke_getSeason means arguments]
      exact onDate_read (.string ·.seasonKey) becomes
    · intro call key means arguments
      rcases onDate_eq (fun date => (none, date.withSeasonKey key)) becomes with ⟨last, does, _⟩
      rw [invoke_setSeason means arguments, does]
  · intro receiver animal isAnimal calls after sentHome
    have becomes : after.animal? =
        some { animal with location := if sentHome then animal.home else animal.location } := by
      rw [animal?_invokeAll isAnimal calls]
      change some (if sentHome then animal.warpedHome else animal) = _
      cases sentHome <;> rfl
    refine ⟨becomes, ?_, ?_⟩
    · intro call means arguments
      have reads := onAnimal_read (.boolean ·.isCoopDweller) becomes
      rw [invoke_isCoopDweller means arguments]
      exact reads
    · intro call means arguments
      rcases onAnimal_eq (fun animal => (none, animal.warpedHome)) becomes with ⟨last, does, _⟩
      rw [invoke_warpHome means arguments, does]

/-- Writes a season to a date, as old code does, and then what is no string. -/
def seasonCalls : List FacadeCall :=
  let setter : MethodRef :=
    ⟨TypeRef.simple "StardewValley" "WorldDate", "set_Season", TypeRef.void, [TypeRef.simple "System" "String"], true,
      []⟩
  [⟨setter, [.string "fall"]⟩, ⟨setter, [.int32 1]⟩]

/-- Sends an animal home, as old code does. -/
def homeCall : FacadeCall :=
  let animals := TypeRef.simple "StardewValley" "FarmAnimal"
  ⟨⟨animals, "warpHome", TypeRef.void, [TypeRef.simple "StardewValley" "Farm", animals], true, []⟩, [.null, .null]⟩

theorem shipped_facades_transparent_fall :
    let date : WorldDate := ⟨3, "summer", 9⟩
    let duck : FarmAnimal := ⟨"Duck", some "Coop", some "Coop", some "Forest"⟩
    let wrapped := worldDate.invokeAll seasonCalls (.worldDateFacade date)
    worldDate ∈ shipped ∧ worldDate.wrap (.worldDate date) = .ok (.worldDateFacade date) ∧
      wrapped.1 = [.ok none, .error (.facade (.stringArgument "set_Season" 0))] ∧
      wrapped.1 = (worldDate.invokeAll seasonCalls (.worldDate date)).1 ∧
      wrapped.2.unwrapped = (worldDate.invokeAll seasonCalls (.worldDate date)).2 ∧
      wrapped.2.date? = some ⟨3, "fall", 9⟩ ∧
      (farmAnimal.invokeAll [homeCall] (.farmAnimal duck)).2.animal? = some { duck with location := some "Coop" } ∧
      worldDate.base.holds (.farmAnimal duck) = false ∧
      (worldDate.invokeAll seasonCalls (.farmAnimal duck)).2 = .farmAnimal duck := by
  intro date duck wrapped
  have shippedDate : worldDate ∈ shipped := List.mem_cons_self
  have wraps : worldDate.wrap (.worldDate date) = .ok (.worldDateFacade date) := rfl
  have results : wrapped.1 = [.ok none, .error (.facade (.stringArgument "set_Season" 0))] := by decide +kernel
  have other : worldDate.base.holds (.farmAnimal duck) = false := rfl
  rcases shipped_facades_transparent with ⟨alike, _, rejects, dates, animals⟩
  have same := alike worldDate shippedDate _ _ wraps seasonCalls
  have written := (dates (.worldDateFacade date) date rfl seasonCalls).1
  have sent := (animals (.farmAnimal duck) duck rfl [homeCall]).1
  refine ⟨shippedDate, wraps, results, same.1, same.2, written.trans ?_, sent.trans ?_, other, ?_⟩
  · decide +kernel
  · decide +kernel
  · exact (rejects worldDate shippedDate _ other seasonCalls).1

end Facade

end CilRelink
