import CilRelink.Proofs.Rule.Breakage
import CilRelink.Proofs.Rule.Completion

/-!
# Calls of inherited methods

Whether a call resolves is asked twice. To report it as broken, its method is looked for along the bases of its type; to
complete it, in the type alone. So a call of an inherited method, which is not broken, is completed nevertheless if the
type has a method of the same name that takes what the call gives and goes on with defaults. Calls that resolve in the
type itself, and so all constructor calls that resolve, are left alone.
-/

namespace CilRelink

/-- Whether a reference to a method resolves `count` steps up from its type, where constructors are not looked for
anywhere but in the type itself. -/
structure MethodRef.Resolves (reference : MethodRef) (host : HostTable) (definition : HostDefinition) (count : Nat) :
    Prop where
  live : host.find? reference.declaringType = some definition
  declared : ∃ candidate, reference.sought.candidate? host definition count = some candidate ∧
    candidate.declares reference = true

namespace MethodRef

variable {reference : MethodRef} {host : HostTable} {definition : HostDefinition} {count : Nat}

theorem exists_declared?_iff :
    (∃ live, reference.sought.declared? definition = some live) ↔ definition.declares reference = true := by
  rw [← Option.isSome_iff_exists, sought, Option.isSome_map, List.find?_isSome, HostDefinition.declares,
    List.any_eq_true]

/-- The way up from a type begins at the type, and from a constructor's it ends there. -/
theorem Resolves.declares (resolves : reference.Resolves host definition count)
    (here : count = 0 ∨ reference.isConstructor = true) : definition.declares reference = true := by
  rcases resolves.declared with ⟨candidate, reached, declared⟩
  unfold Sought.candidate? at reached
  split at reached
  · rename_i inherited
    have start : count = 0 := by
      rcases here with here | constructs
      · exact here
      · simpa [sought, constructs] using inherited
    subst start
    cases reached
    exact declared
  · cases reached

end MethodRef

namespace Breakage

variable {host : HostTable} {breakage : Breakage}

mutual

/-- All that can be broken about a type is that it mentions one that is gone. -/
theorem exists_of_ofType : (type : TypeRef) → ofType host type = some breakage → ∃ gone, breakage = .missingType gone
  | .named ⟨dotted, name, enclosing, arguments, assembly⟩, found => by
    simp only [ofType] at found
    split at found
    · cases found
      exact ⟨_, rfl⟩
    · exact exists_of_ofTypes arguments found
  | .placeholder _, found => nomatch found
  | .array element _, found => exists_of_ofType element (by rwa [ofType] at found)
  | .byRef target, found => exists_of_ofType target (by rwa [ofType] at found)
  | .pointer target, found => exists_of_ofType target (by rwa [ofType] at found)

theorem exists_of_ofTypes : (types : List TypeRef) → ofTypes host types = some breakage →
    ∃ gone, breakage = .missingType gone
  | [], found => nomatch found
  | type :: types, found => by
    rw [ofTypes] at found
    split at found
    · rename_i first
      cases found
      exact exists_of_ofType type first
    · exact exists_of_ofTypes types found

end

end Breakage

/-- A member that a type on the way up declares is not missed by the search: all that can be broken is a type that the
reference mentions, or what the member returns or holds. -/
theorem Sought.breakage_of_candidate {sought : Sought} {host : HostTable} {definition candidate : HostDefinition}
    {count : Nat} {live : HostType} {missing breakage : Breakage} {changed : HostType → Breakage}
    (acyclic : host.Acyclic) (found : host.find? sought.declaringType = some definition)
    (reached : sought.candidate? host definition count = some candidate)
    (declared : sought.declared? candidate = some live)
    (broken : sought.breakage host missing changed = some breakage) :
    (∃ gone, breakage = .missingType gone) ∨ ∃ live, breakage = changed live := by
  unfold Sought.breakage Breakage.ofAncestry at broken
  split at broken
  · rename_i lost
    cases broken
    exact .inl (Breakage.exists_of_ofTypes _ lost)
  · simp only [found] at broken
    split at broken
    · cases broken
    · split at broken
      · split at broken
        · cases broken
        · cases broken
          exact .inr ⟨_, rfl⟩
      · rename_i nowhere
        rw [List.findSome?_eq_none_iff] at nowhere
        rw [← getElem?_ancestry acyclic (HostTable.mem_known_of_find? found)] at reached
        rw [nowhere candidate (List.mem_of_getElem? reached)] at declared
        cases declared

theorem MethodRef.Resolves.not_missing {reference : MethodRef} {host : HostTable} {definition : HostDefinition}
    {count : Nat} (resolves : reference.Resolves host definition count) (acyclic : host.Acyclic) :
    Breakage.ofMethod host reference ≠ some (.missingMethod reference) := by
  intro missed
  rcases resolves.declared with ⟨candidate, reached, declares⟩
  rcases MethodRef.exists_declared?_iff.mpr declares with ⟨live, declared⟩
  rw [Breakage.ofMethod_eq] at missed
  rcases Sought.breakage_of_candidate acyclic resolves.live reached declared missed with ⟨_, same⟩ | ⟨_, same⟩
  · cases same
  · cases same

namespace Completion

section Calls

variable {context : RuleContext} {body : Body} {place count : Nat} {call : Instruction} {reference : MethodRef}
variable {definition : HostDefinition}

theorem judge_eq_none_iff (invokes : call.invokedMethod? = some reference)
    (live : context.host.find? reference.declaringType = some definition) :
    judge context call = none ↔ definition.declares reference = true ∨
      ∀ method ∈ definition.callables reference.name, extendsCall method reference = false := by
  simp only [judge, invokes, live, Option.bind_eq_bind, Option.bind_some]
  cases definition.declares reference with
  | true => simp [failure]
  | false =>
      have searched : (definition.callables reference.name).find? (extendsCall · reference) = none ↔
          ∀ method ∈ definition.callables reference.name, extendsCall method reference = false := by
        simp only [List.find?_eq_none, Bool.not_eq_true]
      rw [← searched]
      cases (definition.callables reference.name).find? (extendsCall · reference) with
      | none => simp
      | some method => simp

/-- A call that resolves on the way up from its type is not reported as calling a method that is missing, but it is left
alone exactly if its type declares the method itself, or has no method that takes what the call gives and goes on with
defaults. So it is left alone if it resolves in its type, or if it is one of a constructor. -/
theorem resolving_call_unchanged_iff (context : RuleContext) (acyclic : context.host.Acyclic)
    (stands : body.instructions[place]? = some call) (invokes : call.invokedMethod? = some reference)
    (resolves : reference.Resolves context.host definition count) :
    (Rule.completeCalls.apply context body place = .ok (none, body) ↔
      definition.declares reference = true ∨
        ∀ method ∈ definition.callables reference.name, extendsCall method reference = false) ∧
    (count = 0 ∨ reference.isConstructor = true →
      Rule.completeCalls.apply context body place = .ok (none, body)) ∧
    Rule.reportBreakage.judge context call ≠ some (.incompatible (.missingMethod reference)) := by
  have unchanged : Rule.completeCalls.apply context body place = .ok (none, body) ↔
      definition.declares reference = true ∨
        ∀ method ∈ definition.callables reference.name, extendsCall method reference = false := by
    rw [Rule.apply_eq_ok_none_iff stands]
    exact judge_eq_none_iff invokes resolves.live
  refine ⟨unchanged, fun here => unchanged.mpr (.inl (resolves.declares here)), ?_⟩
  intro reported
  rw [Rule.judge, Breakage.judge, (Instruction.invokedMethod?_eq_some invokes).1] at reported
  rcases Option.map_eq_some_iff.mp reported with ⟨breakage, missed, same⟩
  cases same
  exact resolves.not_missing acyclic missed

end Calls

section Band

/-- The type of instruments. -/
def instrumentType : HostType := (HostType.simple "" "Instrument").inAssembly "Band"

/-- The type of drums. -/
def drumType : HostType := (HostType.simple "" "Drum").inAssembly "Band"

/-- Instruments can be tuned, and played for some time. -/
def instrument : HostDefinition :=
  (HostDefinition.empty instrumentType).withMethod (.plain "tune" .void)
    |>.withMethod ((HostMethod.plain "play" .void).withParameter "beats" .int32)

/-- Drums are instruments that can be played at a volume, too, which callers may leave out. -/
def drum : HostDefinition :=
  (HostDefinition.empty drumType).withBase instrumentType
    |>.withMethod
      ((HostMethod.plain "play" .void).withParameter "beats" .int32 |>.withDefault "volume" .int32 (.int32 7))

/-- A host of drums. -/
def bandContext : RuleContext := ⟨((HostTable.empty.register instrument).table.register drum).table, .empty, .strict⟩

/-- A call of a method as one of drums. -/
def drumCall (name : String) (parameters : List HostType) : MethodRef :=
  ⟨drumType.reference, name, TypeRef.void, parameters.map HostType.reference, true, []⟩

/-- Tunes a drum and plays it for some time, both as an instrument can be. -/
def bandBody : Body :=
  .ofInstructions
    [.unplaced .callvirt (.method (drumCall "tune" [])), .unplaced .callvirt (.method (drumCall "play" [.int32])),
      .unplaced .ret .none]

theorem resolving_call_unchanged_iff_tune :
    bandContext.host.Acyclic ∧ (drumCall "tune" []).Resolves bandContext.host drum 1 ∧
      Rule.completeCalls.apply bandContext bandBody 0 = .ok (none, bandBody) := by
  have acyclic : bandContext.host.Acyclic := by decide +kernel
  have resolves : (drumCall "tune" []).Resolves bandContext.host drum 1 :=
    ⟨by decide +kernel, instrument, by decide +kernel, by decide +kernel⟩
  have stands : bandBody.instructions[0]? = some (.unplaced .callvirt (.method (drumCall "tune" []))) := rfl
  have tunes := resolving_call_unchanged_iff bandContext acyclic stands rfl resolves
  exact ⟨acyclic, resolves, tunes.1.mpr (.inr (by decide +kernel))⟩

/-- Playing a drum as an instrument resolves and is not reported, but becomes playing it at a volume. -/
theorem inherited_call_completed :
    bandContext.host.Acyclic ∧ (drumCall "play" [.int32]).Resolves bandContext.host drum 1 ∧
      Rule.reportBreakage.apply bandContext bandBody 1 = .ok (none, bandBody) ∧
      ∃ changed, Rule.completeCalls.apply bandContext bandBody 1 =
        .ok (some (.rewritten [.unplaced .ldcI4_7 .none]
          (.unplaced .callvirt (.method (drumCall "play" [.int32, .int32]))) .exact), changed) := by
  refine ⟨by decide +kernel, ⟨by decide +kernel, instrument, by decide +kernel, by decide +kernel⟩, by decide +kernel,
    ?_, ?_⟩
  · exact { Body.ofInstructions
        [.unplaced .callvirt (.method (drumCall "tune" [])), .unplaced .ldcI4_7 .none,
          .unplaced .callvirt (.method (drumCall "play" [.int32, .int32])), .unplaced .ret .none] with
      maxStack := 9 }
  · decide +kernel

end Band

end Completion

end CilRelink
