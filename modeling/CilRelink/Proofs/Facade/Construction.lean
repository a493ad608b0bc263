import CilRelink.Proofs.Facade.Dispatch

/-!
# What facades construct

A facade is constructed through a reference to one of the constructors it takes over, and from arguments. Whether the
reference means a constructor is one question, and whether there is a constructor for the arguments another, which is
not asked of the constructor that is meant. Of the constructors, only those are there for arguments whose parameters
are all numbers or strings; there is no way to construct a date from an object that is a season, though references to
that constructor are redirected too.
-/

namespace CilRelink

/-- Whether values of the type are numbers or strings that are passed as themselves. -/
def HostType.isLiteral (type : HostType) : Bool := type = .int32 || type = .int64 || type = .string

/-- Whether a value may be passed for a parameter of the type. -/
def HostType.admits (type : HostType) : HostValue → Bool
  | .int32 _ => type = .int32
  | .int64 _ => type = .int64
  | .string _ => type = .string
  | .object own => own = type && !type.isLiteral
  | _ => false

namespace HostMethod

/-- The types of the parameters. -/
def parameterTypes (method : HostMethod) : List HostType := method.parameters.map HostParameter.type

/-- Whether the method can be called with arguments: one for each parameter, of its type. -/
def Takes (method : HostMethod) (arguments : List HostValue) : Prop :=
  List.Forall₂ (fun type argument => type.admits argument = true) method.parameterTypes arguments

/-- Whether all parameters are numbers or strings. -/
def takesLiterals (method : HostMethod) : Bool := method.parameterTypes.all HostType.isLiteral

end HostMethod

/-! ## Arguments -/

namespace HostType

variable {type other : HostType} {value : HostValue}

/-- No value may be passed for parameters of different types. -/
theorem eq_of_admits (first : type.admits value = true) (second : other.admits value = true) : type = other := by
  cases value <;> simp_all [admits]

theorem exists_admits (type : HostType) : ∃ value, type.admits value = true := by
  cases literal : type.isLiteral with
  | false => exact ⟨.object type, by simp [admits, literal]⟩
  | true =>
      simp only [isLiteral, Bool.or_eq_true, decide_eq_true_eq] at literal
      rcases literal with (rfl | rfl) | rfl
      · exact ⟨.int32 0, rfl⟩
      · exact ⟨.int64 0, rfl⟩
      · exact ⟨.string "", rfl⟩

theorem admits_int32_iff : int32.admits value = true ↔ ∃ number, value = .int32 number := by
  cases value <;> simp [admits, int32, int64, string, simple, isLiteral]

theorem admits_int64_iff : int64.admits value = true ↔ ∃ number, value = .int64 number := by
  cases value <;> simp [admits, int32, int64, string, simple, isLiteral]

theorem admits_string_iff : string.admits value = true ↔ ∃ text, value = .string text := by
  cases value <;> simp [admits, int32, int64, string, simple, isLiteral]

end HostType

namespace HostMethod

variable {method other : HostMethod} {arguments : List HostValue}

/-- Methods that take the same arguments have parameters of the same types. -/
theorem Takes.parameterTypes_eq (takes : method.Takes arguments) (otherTakes : other.Takes arguments) :
    method.parameterTypes = other.parameterTypes := by
  unfold Takes at takes otherTakes
  generalize method.parameterTypes = types at takes ⊢
  generalize other.parameterTypes = others at otherTakes ⊢
  induction takes generalizing others with
  | nil =>
      cases otherTakes
      rfl
  | cons admits _ ih =>
      rcases otherTakes with _ | ⟨otherAdmits, rest⟩
      rw [HostType.eq_of_admits admits otherAdmits, ih _ rest]

theorem exists_takes (method : HostMethod) : ∃ arguments, method.Takes arguments := by
  unfold Takes
  induction method.parameterTypes with
  | nil => exact ⟨[], .nil⟩
  | cons type types ih =>
      rcases ih with ⟨arguments, rest⟩
      rcases type.exists_admits with ⟨argument, admits⟩
      exact ⟨argument :: arguments, .cons admits rest⟩

end HostMethod

/-! ## Objects -/

namespace FacadeBase

variable {base : FacadeBase} {arguments : List HostValue} {object : GameObject}

theorem exists_wrap_of_construct (built : base.construct arguments = .ok object) :
    ∃ wrapped, base.wrap object = .ok wrapped := by
  unfold construct at built
  split at built <;> cases built <;> exact ⟨_, rfl⟩

theorem exists_construct_worldDate_iff :
    (∃ object, worldDate.construct arguments = .ok object) ↔
      arguments = [] ∨ ∃ year season day, arguments = [.int32 year, .string season, .int32 day] := by
  constructor
  · rintro ⟨object, built⟩
    unfold construct at built
    split at built
    -- the arms of the other type fall away, the last one refuses
    case h_1 => exact .inl rfl
    case h_2 => exact .inr ⟨_, _, _, rfl⟩
    case h_5 => cases built
    all_goals contradiction
  · rintro (rfl | ⟨year, season, day, rfl⟩) <;> exact ⟨_, rfl⟩

theorem exists_construct_farmAnimal_iff :
    (∃ object, farmAnimal.construct arguments = .ok object) ↔
      arguments = [] ∨ ∃ kind id owner, arguments = [.string kind, .int64 id, .int64 owner] := by
  constructor
  · rintro ⟨object, built⟩
    unfold construct at built
    split at built
    case h_3 => exact .inl rfl
    case h_4 => exact .inr ⟨_, _, _, rfl⟩
    case h_5 => cases built
    all_goals contradiction
  · rintro (rfl | ⟨kind, id, owner, rfl⟩) <;> exact ⟨_, rfl⟩

theorem construct_eq_error {error : Error} (failed : base.construct arguments = .error error) :
    ∃ mismatch, error = .facade mismatch := by
  unfold construct at failed
  split at failed <;> cases failed
  exact ⟨_, rfl⟩

end FacadeBase

namespace Facade

/-- Whether an object is constructed. -/
def Constructs (facade : Facade) (reference : MethodRef) (arguments : List HostValue) : Prop :=
  ∃ object, facade.construct reference arguments = .ok object

/-- Whether a reference means a constructor that can be called with the arguments. -/
def Suits (facade : Facade) (reference : MethodRef) (arguments : List HostValue) : Prop :=
  ∃ meant, facade.findConstructor? reference = some meant ∧ meant.Takes arguments

variable {facade : Facade} {reference : MethodRef} {arguments : List HostValue} {meant : HostMethod}

theorem parameterTypes_worldDate : worldDate.constructors.map HostMethod.parameterTypes =
    [[], [.int32, .string, .int32], [.int32, Game.seasonType, .int32]] := rfl

theorem parameterTypes_farmAnimal : farmAnimal.constructors.map HostMethod.parameterTypes =
    [[], [.string, .int64, .int64]] := rfl

theorem exists_takes_iff (facade : Facade) (arguments : List HostValue) :
    (∃ constructor ∈ facade.constructors, constructor.takesLiterals = true ∧ constructor.Takes arguments) ↔
      ∃ types ∈ facade.constructors.map HostMethod.parameterTypes, types.all HostType.isLiteral = true ∧
        List.Forall₂ (fun type argument => type.admits argument = true) types arguments := by
  simp [HostMethod.takesLiterals, HostMethod.Takes]

/-- An object is constructed exactly if a constructor without objects among its parameters takes the arguments. -/
theorem exists_construct_iff (facadeMem : facade ∈ shipped) :
    (∃ object, facade.base.construct arguments = .ok object) ↔
      ∃ constructor ∈ facade.constructors, constructor.takesLiterals = true ∧ constructor.Takes arguments := by
  have literals : HostType.int32.isLiteral = true ∧ HostType.int64.isLiteral = true ∧
      HostType.string.isLiteral = true ∧ Game.seasonType.isLiteral = false := by
    decide
  rw [exists_takes_iff]
  rcases List.mem_pair.mp facadeMem with rfl | rfl
  · change (∃ object, FacadeBase.worldDate.construct arguments = .ok object) ↔ _
    rw [FacadeBase.exists_construct_worldDate_iff, parameterTypes_worldDate]
    simp [literals, List.forall₂_cons_left_iff, HostType.admits_int32_iff, HostType.admits_string_iff]
  · change (∃ object, FacadeBase.farmAnimal.construct arguments = .ok object) ↔ _
    rw [FacadeBase.exists_construct_farmAnimal_iff, parameterTypes_farmAnimal]
    simp [literals, List.forall₂_cons_left_iff, HostType.admits_int64_iff, HostType.admits_string_iff]

/-- Which constructor a reference means plays no part. -/
theorem constructs_iff_of_findConstructor?
    (means : facade.findConstructor? reference = some meant) :
    facade.Constructs reference arguments ↔ ∃ object, facade.base.construct arguments = .ok object := by
  rw [Constructs, construct_of_findConstructor? means arguments]
  constructor
  · rintro ⟨wrapped, constructs⟩
    rcases Fallible.bind_eq_ok_iff.mp constructs with ⟨object, built, _⟩
    exact ⟨object, built⟩
  · rintro ⟨object, built⟩
    rcases FacadeBase.exists_wrap_of_construct built with ⟨wrapped, wraps⟩
    exact ⟨wrapped, Fallible.bind_eq_ok_iff.mpr ⟨object, built, wraps⟩⟩

theorem construct_eq_error {error : Error} (failed : facade.construct reference arguments = .error error) :
    ∃ mismatch, error = .facade mismatch := by
  cases means : facade.findConstructor? reference with
  | none =>
      rw [construct, means] at failed
      cases failed
      exact ⟨_, rfl⟩
  | some meant =>
      rw [construct_of_findConstructor? means arguments] at failed
      rcases Fallible.bind_eq_error_iff.mp failed with failed | ⟨object, built, failed⟩
      · exact FacadeBase.construct_eq_error failed
      · rcases FacadeBase.exists_wrap_of_construct built with ⟨wrapped, wraps⟩
        rw [wrap, wraps] at failed
        cases failed

theorem mem_of_findConstructor? (means : facade.findConstructor? reference = some meant) :
    meant ∈ facade.constructors := by
  unfold findConstructor? at means
  split at means
  · exact List.mem_of_find?_eq_some means
  · cases means

theorem retarget?_of_findConstructor? (means : facade.findConstructor? reference = some meant) :
    facade.retarget? reference = some (meant.reference facade.type) := by
  have constructs : reference.isConstructor = true := by
    by_contra member
    simp [findConstructor?, member] at means
  simp [retarget?, constructs, means]

theorem takes_of_suits (suits : facade.Suits reference arguments)
    (means : facade.findConstructor? reference = some meant) : meant.Takes arguments := by
  rcases suits with ⟨same, meansSame, takes⟩
  cases means.symm.trans meansSame
  exact takes

/-- No two constructors of a shipped facade take the same arguments. -/
theorem eq_of_takes (shippedFacade : facade ∈ shipped) {left right : HostMethod}
    (leftMem : left ∈ facade.constructors) (rightMem : right ∈ facade.constructors)
    (leftTakes : left.Takes arguments) (rightTakes : right.Takes arguments) : left = right := by
  have distinct : ∀ facade ∈ shipped, (facade.constructors.map HostMethod.parameterTypes).Nodup := by
    decide +kernel
  exact List.inj_on_of_nodup_map (distinct facade shippedFacade) leftMem rightMem
    (leftTakes.parameterTypes_eq rightTakes)

/-- The constructors of the shipped facades are found under their own references. -/
theorem findConstructor?_reference (shippedFacade : facade ∈ shipped) (meantMem : meant ∈ facade.constructors) :
    facade.findConstructor? (meant.reference facade.type) = some meant := by
  have found : ∀ facade ∈ shipped, ∀ constructor ∈ facade.constructors,
      facade.findConstructor? (constructor.reference facade.type) = some constructor := by
    decide +kernel
  exact found facade shippedFacade meant meantMem

/-- The shipped facades construct exactly if the reference means some constructor and some constructor without objects
among its parameters takes the arguments. -/
theorem constructs_iff (shippedFacade : facade ∈ shipped) :
    facade.Constructs reference arguments ↔
      (∃ meant, facade.findConstructor? reference = some meant) ∧
        ∃ constructor ∈ facade.constructors, constructor.takesLiterals = true ∧ constructor.Takes arguments := by
  constructor
  · rintro ⟨object, constructs⟩
    cases means : facade.findConstructor? reference with
    | none =>
        rw [construct, means] at constructs
        cases constructs
    | some meant =>
        have built := (constructs_iff_of_findConstructor? means).mp ⟨object, constructs⟩
        exact ⟨⟨meant, rfl⟩, (exists_construct_iff shippedFacade).mp built⟩
  · rintro ⟨⟨meant, means⟩, taken⟩
    exact (constructs_iff_of_findConstructor? means).mpr ((exists_construct_iff shippedFacade).mpr taken)

/-- From arguments that suit a reference, an object is constructed exactly if they are numbers and strings. -/
theorem constructs_iff_takesLiterals (shippedFacade : facade ∈ shipped)
    (means : facade.findConstructor? reference = some meant) (takes : meant.Takes arguments) :
    facade.Constructs reference arguments ↔ meant.takesLiterals = true := by
  rw [constructs_iff shippedFacade]
  constructor
  · rintro ⟨_, other, otherMem, literals, otherTakes⟩
    cases eq_of_takes shippedFacade otherMem (mem_of_findConstructor? means) otherTakes takes
    exact literals
  · intro literals
    exact ⟨⟨meant, means⟩, meant, mem_of_findConstructor? means, literals, takes⟩

/-- What a shipped facade constructs goes by the arguments: there has to be a constructor of numbers and strings for
them, which need not be the one that the reference means. So, beyond what suits the reference, it constructs exactly
from what another such constructor takes; and what suits the reference is refused exactly if there is an object among
the parameters. A constructor of that kind is offered to old code like the others, but can never be called. -/
theorem constructed_by_arguments (shippedFacade : facade ∈ shipped) (reference : MethodRef)
    (arguments : List HostValue) :
    (facade.Constructs reference arguments ↔
      (∃ meant, facade.findConstructor? reference = some meant) ∧
        ∃ constructor ∈ facade.constructors, constructor.takesLiterals = true ∧ constructor.Takes arguments) ∧
    (∀ error, facade.construct reference arguments = .error error → ∃ mismatch, error = .facade mismatch) ∧
    (facade.Constructs reference arguments ∧ ¬ facade.Suits reference arguments ↔
      ∃ meant, facade.findConstructor? reference = some meant ∧
        ∃ other ∈ facade.constructors, other ≠ meant ∧ other.takesLiterals = true ∧ other.Takes arguments) ∧
    (facade.Suits reference arguments ∧ ¬ facade.Constructs reference arguments ↔
      ∃ meant, facade.findConstructor? reference = some meant ∧
        meant.takesLiterals = false ∧ meant.Takes arguments) ∧
    ∀ meant, facade.findConstructor? reference = some meant →
      facade.retarget? reference = some (meant.reference facade.type) ∧
      facade.findConstructor? (meant.reference facade.type) = some meant ∧
      ((∃ fitting, meant.Takes fitting ∧ facade.Constructs (meant.reference facade.type) fitting) ↔
        meant.takesLiterals = true) := by
  refine ⟨constructs_iff shippedFacade, fun error failed => construct_eq_error failed, ?_, ?_, ?_⟩
  · constructor
    · rintro ⟨constructs, unsuited⟩
      rcases (constructs_iff shippedFacade).mp constructs with ⟨⟨meant, means⟩, other, otherMem, literals, takes⟩
      refine ⟨meant, means, other, otherMem, ?_, literals, takes⟩
      rintro rfl
      exact unsuited ⟨other, means, takes⟩
    · rintro ⟨meant, means, other, otherMem, different, literals, takes⟩
      refine ⟨(constructs_iff shippedFacade).mpr ⟨⟨meant, means⟩, other, otherMem, literals, takes⟩, ?_⟩
      intro suits
      have meantTakes := takes_of_suits suits means
      exact different (eq_of_takes shippedFacade otherMem (mem_of_findConstructor? means) takes meantTakes)
  · constructor
    · rintro ⟨⟨meant, means, takes⟩, refused⟩
      have literals := mt (constructs_iff_takesLiterals shippedFacade means takes).mpr refused
      exact ⟨meant, means, Bool.eq_false_of_not_eq_true literals, takes⟩
    · rintro ⟨meant, means, objects, takes⟩
      refine ⟨⟨meant, means, takes⟩, ?_⟩
      rw [constructs_iff_takesLiterals shippedFacade means takes, objects]
      exact Bool.false_ne_true
  · intro meant means
    have again := findConstructor?_reference shippedFacade (mem_of_findConstructor? means)
    refine ⟨retarget?_of_findConstructor? means, again, ?_⟩
    constructor
    · rintro ⟨fitting, takes, constructs⟩
      exact (constructs_iff_takesLiterals shippedFacade again takes).mp constructs
    · intro literals
      rcases meant.exists_takes with ⟨fitting, takes⟩
      exact ⟨fitting, takes, (constructs_iff_takesLiterals shippedFacade again takes).mpr literals⟩

/-- How old code refers to a constructor of dates. -/
def dateConstructor (parameters : List TypeRef) : MethodRef :=
  ⟨TypeRef.simple "StardewValley" "WorldDate", ".ctor", TypeRef.void, parameters, true, []⟩

/-- The arguments for a day in summer. -/
def summerDay : List HostValue := [.int32 3, .string "summer", .int32 9]

theorem construct_summerDay :
    worldDate.construct (dateConstructor []) summerDay = .ok (.worldDateFacade ⟨3, "summer", 9⟩) := by
  decide +kernel

theorem not_suits_summerDay : ¬ worldDate.Suits (dateConstructor []) summerDay := by
  have means : worldDate.findConstructor? (dateConstructor []) = some HostMethod.constructor := by decide +kernel
  intro suits
  have takes : List.Forall₂ _ [] summerDay := takes_of_suits suits means
  exact absurd (List.forall₂_nil_left_iff.mp takes) (List.cons_ne_nil _ _)

theorem constructed_by_arguments_summerDay :
    worldDate ∈ shipped ∧
      worldDate.construct (dateConstructor []) summerDay = .ok (.worldDateFacade ⟨3, "summer", 9⟩) ∧
      ∃ meant, worldDate.findConstructor? (dateConstructor []) = some meant ∧
        ∃ other ∈ worldDate.constructors, other ≠ meant ∧ other.takesLiterals = true ∧ other.Takes summerDay := by
  have shippedDate : worldDate ∈ shipped := List.mem_cons_self
  rcases constructed_by_arguments shippedDate (dateConstructor []) summerDay with ⟨_, _, beyond, _⟩
  exact ⟨shippedDate, construct_summerDay, beyond.mp ⟨⟨_, construct_summerDay⟩, not_suits_summerDay⟩⟩

/-- A call of the constructor without parameters goes through with the arguments of another, while the constructor with
a season, which old code is sent to, is refused its own. -/
theorem constructed_unsuited :
    let numeral := TypeRef.simple "System" "Int32"
    let reference := dateConstructor [numeral, TypeRef.simple "StardewValley" "Season", numeral]
    let redirected : MethodRef :=
      { reference with
        declaringType := (typeNamed "WorldDateFacade").reference
        parameters := [numeral, Game.seasonType.reference, numeral] }
    let seasonal : List HostValue := [.int32 3, .object Game.seasonType, .int32 9]
    worldDate.construct (dateConstructor []) summerDay = .ok (.worldDateFacade ⟨3, "summer", 9⟩) ∧
      ¬ worldDate.Suits (dateConstructor []) summerDay ∧
      Redirections.facadeMethod ⟨Game.table, .shipped, .strict⟩ reference = some redirected ∧
      worldDate.Suits redirected seasonal ∧
      worldDate.construct redirected seasonal = .error (.facade (.baseArguments "WorldDate" 3)) ∧
      ¬ ∀ facade ∈ shipped, ∀ reference arguments,
        facade.Constructs reference arguments ↔ facade.Suits reference arguments := by
  intro numeral reference redirected seasonal
  refine ⟨construct_summerDay, not_suits_summerDay, by decide +kernel, ?_, by decide +kernel, ?_⟩
  · refine ⟨_, rfl, .cons ?_ (.cons ?_ (.cons ?_ .nil))⟩ <;> decide +kernel
  · intro accepts
    have suits := (accepts worldDate List.mem_cons_self _ _).mp ⟨_, construct_summerDay⟩
    exact not_suits_summerDay suits

end Facade

end CilRelink
