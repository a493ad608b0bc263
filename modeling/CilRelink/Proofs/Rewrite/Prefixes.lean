import CilRelink.Proofs.Code.Least
import CilRelink.Proofs.Rewrite.Coverage
import CilRelink.Proofs.Rule.Completion

/-!
# Prefixes and what follows them

A prefix changes how the instruction behind it is carried out. Rules know nothing of prefixes: each instruction makes
way for a site of its own, so a prefix stays, and stays in front of the site of the instruction that it was in front of.
That site begins with the access that there was, or with what it was redirected to, unless the access is a call that was
completed or reads a field that became a literal. Then a load of a literal comes in between.
-/

namespace CilRelink

/-- Whether an opcode changes how the next instruction is carried out. -/
def Opcode.isPrefix : Opcode → Bool
  | .constrained | .tail | .volatile | .unaligned | .readonly | .noCheck => true
  | _ => false

/-- Whether the operand is a reference to a member that is called or accessed. -/
def Operand.IsMember : Operand → Prop
  | .field _ | .method _ => True
  | _ => False

theorem Operand.IsMember.isReference {operand : Operand} (member : operand.IsMember) : operand.IsReference := by
  cases operand <;> trivial

namespace Opcode

variable {opcode : Opcode}

theorem operandKind_of_isPrefix (modifies : opcode.isPrefix = true) :
    opcode.operandKind = .none ∨ opcode.operandKind = .uint8 ∨ opcode.operandKind = .type := by
  unfold isPrefix at modifies
  split at modifies
  · exact .inr (.inr rfl)
  · exact .inl rfl
  · exact .inl rfl
  · exact .inr (.inl rfl)
  · exact .inl rfl
  · exact .inr (.inl rfl)
  · cases modifies

theorem widened?_of_isPrefix (modifies : opcode.isPrefix = true) : opcode.widened? = none := by
  -- only short branches are widened
  rw [← Option.not_isSome_iff_eq_none, isSome_widened?_iff]
  rcases operandKind_of_isPrefix modifies with kind | kind | kind
  all_goals
    rw [kind]
    exact OperandKind.noConfusion

/-- Of references, prefixes have those to types only. -/
theorem exists_type_of_isPrefix {operand : Operand} (modifies : opcode.isPrefix = true)
    (fits : operand.fits opcode.operandKind = true) (reference : operand.IsReference) :
    ∃ type, operand = .type type := by
  cases operand with
  | type type => exact ⟨type, rfl⟩
  | field | method | symbol =>
      rcases operandKind_of_isPrefix modifies with kind | kind | kind
      all_goals
        rw [kind] at fits
        cases fits
  | _ => cases reference

end Opcode

namespace Redirections

variable {redirections : Redirections} {context : RuleContext} {instruction image : Instruction}
  {confidence : Confidence}

theorem exists_method_of_accessorCall {reference : FieldRef} {getter setter : Option MethodRef}
    (made : accessorCall instruction reference getter setter = .ok image) :
    ∃ method, image.operand = .method method := by
  simp only [accessorCall] at made
  split at made
  · cases made
  · split at made
    all_goals
      split at made
      · cases made
        exact ⟨_, rfl⟩
      · cases made

theorem isMember_of_replacement (member : instruction.operand.IsMember)
    (decided : redirections.replacement context instruction = .ok (some (image, confidence))) :
    image.operand.IsMember := by
  rcases instruction with ⟨offset, opcode, operand⟩
  cases operand with
  | method reference =>
      simp only [replacement, Except.ok.injEq, Option.bind_eq_some_iff, Prod.exists] at decided
      rcases decided with ⟨method, weight, _, made⟩
      rw [(checked_eq_some made).2.1]
      trivial
  | field reference =>
      simp only [replacement] at decided
      split at decided
      · rcases Fallible.map_eq_ok_iff.mp decided with ⟨call, made, same⟩
        cases same
        rcases exists_method_of_accessorCall made with ⟨method, names⟩
        rw [names]
        trivial
      · simp only [Except.ok.injEq, Option.bind_eq_some_iff, Prod.exists] at decided
        rcases decided with ⟨field, weight, _, made⟩
        rw [(checked_eq_some made).2.1]
        trivial
  | _ => cases member

end Redirections

namespace Rule

variable {rule : Rule} {context : RuleContext} {instruction replacement : Instruction} {loads : List Instruction}
  {confidence : Confidence}

theorem redirect_judge_eq_rewritten {redirections : Redirections}
    (decided : (redirect redirections).judge context instruction = some (.rewritten loads replacement confidence)) :
    loads = [] ∧ redirections.replacement context instruction = .ok (some (replacement, confidence)) := by
  simp only [judge, Redirections.judge] at decided
  split at decided
  · cases decided
  · rename_i found
    rcases Option.map_eq_some_iff.mp decided with ⟨⟨new, weight⟩, rfl, made⟩
    cases made
    exact ⟨rfl, found⟩

/-- An instruction that names a type keeps its opcode when it is rewritten, and nothing is put in front of it. -/
theorem rewrites_type {type : TypeRef} (names : instruction.operand = .type type)
    (decided : rule.judge context instruction = some (.rewritten loads replacement confidence)) :
    loads = [] ∧ replacement.opcode = instruction.opcode := by
  cases rule with
  | redirect redirections =>
      rcases redirect_judge_eq_rewritten decided with ⟨noLoads, found⟩
      refine ⟨noLoads, ?_⟩
      simp only [Redirections.replacement, names, Except.ok.injEq, Option.bind_eq_some_iff] at found
      rcases found with ⟨image, _, made⟩
      rw [(Redirections.checked_eq_some made).2.1]
      rfl
  | inlineLiterals literals => simp [judge, Literals.judge, names] at decided
  | completeCalls =>
      rcases Completion.judge_eq_some_iff.mp decided with ⟨_, _, _, invoked, _⟩
      rw [(Instruction.invokedMethod?_eq_some invoked).1] at names
      cases names
  | reportBreakage => cases rewrites_of_judge decided

theorem loads_ne_nil_of_completeCalls
    (decided : completeCalls.judge context instruction = some (.rewritten loads replacement confidence)) :
    loads ≠ [] := by
  rcases Completion.judge_eq_some_iff.mp decided with ⟨reference, definition, method, _, _, _, extending, made⟩
  have extended := List.find?_some extending
  simp only [Completion.extendsCall, Bool.and_eq_true, decide_eq_true_eq] at extended
  have count := Completion.length_of_loadsDefault (Completion.complete_eq_rewritten made).1
  refine List.ne_nil_of_length_pos ?_
  omega

end Rule

namespace Rewriter

/-- Whether a call is completed, or the value of a literal field is loaded in place of an access. -/
def loadsLiteralFor (rewriter : Rewriter) (access : Instruction) : Bool :=
  match rewriter.judge access with
  | some (.completeCalls, .rewritten ..) | some (.inlineLiterals _, .rewritten ..) => true
  | _ => false

/-- Whether an operand is that of what the site of an access begins with. -/
structure Begins (rewriter : Rewriter) (access : Instruction) (operand : Operand) : Prop where
  /-- If no literal is loaded, it is the reference that there was, or what it was redirected to. -/
  accessed : rewriter.loadsLiteralFor access = false →
    operand.IsMember ∧ (operand = access.operand ∨ ∃ redirections replacement confidence,
      rewriter.judge access = some (.redirect redirections, .rewritten [] replacement confidence) ∧
        operand = replacement.operand)
  loaded : rewriter.loadsLiteralFor access = true → operand.IsLiteral

section Sites

variable {rewriter : Rewriter} {modifier access original : Instruction} {move : Nat → Nat} {position : Nat}
  {instructions : List Instruction}

/-- A prefix makes way for no more than itself. -/
theorem site_of_isPrefix (modifies : modifier.opcode.isPrefix = true) (move : Nat → Nat) :
    rewriter.loadsFor modifier = [] ∧
      ∃ kept, (rewriter.site move modifier)[0]? = some kept ∧ kept.opcode = modifier.opcode := by
  unfold loadsFor site
  cases decided : rewriter.judge modifier with
  | none => exact ⟨rfl, _, rfl, rfl⟩
  | some claim =>
      rcases claim with ⟨rule, verdict⟩
      cases verdict with
      | incompatible breakage => exact ⟨rfl, _, rfl, rfl⟩
      | rewritten loads replacement confidence =>
          have judged := (judge_eq_some decided).2
          rcases Rule.isWellFormed_of_judge judged with ⟨fits, reference⟩
          rcases Opcode.exists_type_of_isPrefix modifies fits reference with ⟨type, names⟩
          rcases Rule.rewrites_type names judged with ⟨rfl, sameOpcode⟩
          exact ⟨rfl, _, rfl, sameOpcode⟩

theorem getElem?_site_of_keeps (keeps : rewriter.Keeps access) (member : access.operand.IsMember) (move : Nat → Nat) :
    (rewriter.site move access)[0]? = some access := by
  have still := Instruction.mapPositions_eq_self member.isReference.positions_eq_nil move
  rw [keeps.site_eq, still, List.getElem?_cons_zero]

/-- The site of an access begins with the access, or with what it is redirected to, unless literals are loaded. -/
theorem exists_begins (member : access.operand.IsMember) (move : Nat → Nat) :
    ∃ first, (rewriter.site move access)[0]? = some first ∧ rewriter.Begins access first.operand := by
  cases decided : rewriter.judge access with
  | none =>
      refine ⟨access, getElem?_site_of_keeps (.inl decided) member move, ?_⟩
      exact ⟨fun _ => ⟨member, .inl rfl⟩, by simp [loadsLiteralFor, decided]⟩
  | some claim =>
      rcases claim with ⟨rule, verdict⟩
      cases verdict with
      | incompatible breakage =>
          refine ⟨access, getElem?_site_of_keeps (.inr ⟨rule, breakage, decided⟩) member move, ?_⟩
          exact ⟨fun _ => ⟨member, .inl rfl⟩, by simp [loadsLiteralFor, decided]⟩
      | rewritten loads replacement confidence =>
          have judged := (judge_eq_some decided).2
          simp only [site, decided]
          cases Rule.rewrites_of_judge judged with
          | redirects redirections replacement reference =>
              have redirected := (Rule.redirect_judge_eq_rewritten judged).2
              have stillMember := Redirections.isMember_of_replacement member redirected
              refine ⟨_, rfl, fun _ => ⟨stillMember, .inr ⟨_, _, _, decided, rfl⟩⟩, ?_⟩
              simp [loadsLiteralFor, decided]
          | inlines literals load literal =>
              refine ⟨_, rfl, ?_, fun _ => literal⟩
              simp [loadsLiteralFor, decided]
          | completes loads method literals =>
              rcases List.exists_cons_of_ne_nil (Rule.loads_ne_nil_of_completeCalls judged) with ⟨first, rest, rfl⟩
              refine ⟨first, rfl, ?_, fun _ => literals first List.mem_cons_self⟩
              simp [loadsLiteralFor, decided]

theorem take_drop_flatMap_site (stands : instructions[position]? = some original) :
    ((instructions.flatMap (rewriter.site move)).drop (rewriter.start instructions position)).take
      (rewriter.site move original).length = rewriter.site move original := by
  rcases List.getElem?_eq_some_iff.mp stands with ⟨inside, rfl⟩
  have shape : instructions.flatMap (rewriter.site move) =
      (instructions.take position).flatMap (rewriter.site move) ++
        (rewriter.site move instructions[position] ++
          (instructions.drop (position + 1)).flatMap (rewriter.site move)) := by
    rw [← List.flatMap_cons, ← List.drop_eq_getElem_cons inside, ← List.flatMap_append, List.take_append_drop]
  have front : ((instructions.take position).flatMap (rewriter.site move)).length =
      rewriter.start instructions position := by
    rw [length_flatMap_site, List.length_take_of_le (Nat.le_of_lt inside), start]
  rw [shape, List.drop_left' front, List.take_left]

end Sites

section Bodies

variable {rewriter : Rewriter} {name : String} {body : Body} {report : MethodReport} {position index : Nat}
  {original instruction : Instruction}

/-- What stands in a site stands in the rewritten body, unless it is a short branch that was widened. -/
theorem exists_relaid_of_site (succeeds : (rewriter.rewriteBody name body).result = .ok report)
    (stands : body.instructions[position]? = some original)
    (inSite : (rewriter.site (rewriter.start body.instructions) original)[index]? = some instruction) :
    ∃ after, (rewriter.rewriteBody name body).body.instructions[rewriter.start body.instructions position + index]? =
      some after ∧ instruction.Relaid after :=
  Code.exists_of_forall₂ (relaid_rewriteBody succeeds) (getElem?_of_site stands inSite)

theorem operands_of_site (succeeds : (rewriter.rewriteBody name body).result = .ok report)
    (stands : body.instructions[position]? = some original) :
    (((rewriter.rewriteBody name body).body.instructions.drop (rewriter.start body.instructions position)).take
        (rewriter.site (rewriter.start body.instructions) original).length).map Instruction.operand =
      (rewriter.site (rewriter.start body.instructions) original).map Instruction.operand := by
  rw [List.map_take, List.map_drop, map_operand_rewriteBody succeeds, ← List.map_drop, ← List.map_take]
  exact congrArg (List.map Instruction.operand) (take_drop_flatMap_site stands)

end Bodies

/-- A prefix that there was in front of an access to a member is there in the rewritten body, in front of the site of
the access. So it is followed by the access, or by what the access was redirected to, unless literals are loaded for the
access. A call that was completed comes behind all of its loads, of which there is at least one. -/
theorem prefix_precedes_site (rewriter : Rewriter) (name : String) (body : Body) {report : MethodReport}
    (succeeds : (rewriter.rewriteBody name body).result = .ok report) {position : Nat} {modifier access : Instruction}
    (stands : body.instructions[position]? = some modifier) (modifies : modifier.opcode.isPrefix = true)
    (follows : body.instructions[position + 1]? = some access) (member : access.operand.IsMember) :
    let after := (rewriter.rewriteBody name body).body.instructions
    let place := rewriter.start body.instructions position
    (∃ kept, after[place]? = some kept ∧ kept.opcode = modifier.opcode) ∧
    (∃ follower, after[place + 1]? = some follower ∧ rewriter.Begins access follower.operand) ∧
    ∀ loads replacement confidence,
      rewriter.judge access = some (.completeCalls, .rewritten loads replacement confidence) →
        loads ≠ [] ∧ (∀ load ∈ loads, load.operand.IsLiteral) ∧ replacement.operand.IsMember ∧
          ((after.drop (place + 1)).take (loads.length + 1)).map Instruction.operand =
            loads.map Instruction.operand ++ [replacement.operand] := by
  intro after place
  rcases site_of_isPrefix modifies (rewriter.start body.instructions) with ⟨noLoads, image, only, sameOpcode⟩
  have next : rewriter.start body.instructions (position + 1) = place + 1 := by
    rw [start_succ rewriter stands, noLoads, List.length_nil]
  refine ⟨?kept, ?follower, ?completed⟩
  case kept =>
    rcases exists_relaid_of_site succeeds stands only with ⟨kept, there, laid⟩
    rw [← sameOpcode] at modifies
    have unwidened := laid.opcode.resolve_right (by simp [Opcode.widened?_of_isPrefix modifies])
    exact ⟨kept, there, unwidened.trans sameOpcode⟩
  case follower =>
    rcases exists_begins member (rewriter.start body.instructions) with ⟨first, atStart, begins⟩
    rcases exists_relaid_of_site succeeds follows atStart with ⟨follower, there, laid⟩
    rw [next] at there
    rw [← laid.operand] at begins
    exact ⟨follower, there, begins⟩
  case completed =>
    intro loads replacement confidence decided
    have judged := (judge_eq_some decided).2
    have rewrites := Rule.rewrites_of_judge judged
    refine ⟨Rule.loads_ne_nil_of_completeCalls judged, rewrites.loads_literal, ?_, ?_⟩
    · cases rewrites
      trivial
    · have site : rewriter.site (rewriter.start body.instructions) access =
          loads ++ [{ replacement with offset := access.offset }] := by
        simp only [Rewriter.site, decided]
      have operands := operands_of_site succeeds follows
      rw [site, next, List.length_append, List.length_singleton] at operands
      exact operands.trans List.map_append

section Doors

/-- The stock rules for a host of doors, which are all of the same width. -/
def wideDoorRewriter : Rewriter :=
  let door : HostType := (HostType.simple "" "Door").inAssembly "House"
  let swing := ((HostMethod.plain "swing" .void).withParameter "angle" .int32).withDefault "speed" .int32 (.int32 7)
  let definition := ((HostDefinition.empty door).withMethod swing).withField ⟨"width", .int32, true, some (.int32 2)⟩
  ⟨Rule.stock, (HostTable.empty.register definition).table, .empty, .strict⟩

/-- The type of doors. -/
def doorReference : TypeRef := .named ⟨"", "Door", none, [], some "House"⟩

/-- A call of the method of doors that gives arguments of these types. -/
def swingCall (parameters : List TypeRef) : Instruction :=
  .unplaced .callvirt (.method ⟨doorReference, "swing", .void, parameters, true, []⟩)

/-- Three accesses with prefixes: a call that lacks a speed, the same call with a speed, and a read of the width. -/
def prefixedBody : Body :=
  .ofInstructions
    [.unplaced .constrained (.type doorReference), swingCall [HostType.int32.reference],
      .unplaced .constrained (.type doorReference), swingCall [HostType.int32.reference, HostType.int32.reference],
      .unplaced .volatile .none, .unplaced .ldsfld (.field ⟨doorReference, "width", HostType.int32.reference⟩),
      .unplaced .pop .none, .unplaced .ret .none]

theorem prefix_precedes_site_swing :
    ∃ report kept follower, (wideDoorRewriter.rewriteBody "turn" prefixedBody).result = .ok report ∧
      wideDoorRewriter.start prefixedBody.instructions 2 = 3 ∧
      (wideDoorRewriter.rewriteBody "turn" prefixedBody).body.instructions[3]? = some kept ∧
      kept.opcode = .constrained ∧
      (wideDoorRewriter.rewriteBody "turn" prefixedBody).body.instructions[4]? = some follower ∧
      follower.operand.IsMember := by
  have succeeds : (wideDoorRewriter.rewriteBody "turn" prefixedBody).result = .ok ⟨"turn", 2, 0, [], []⟩ := by
    decide +kernel
  have place : wideDoorRewriter.start prefixedBody.instructions 2 = 3 := by decide +kernel
  have stands : prefixedBody.instructions[2]? = some (.unplaced .constrained (.type doorReference)) := rfl
  have precedes := prefix_precedes_site wideDoorRewriter "turn" prefixedBody succeeds stands rfl rfl trivial
  rw [place] at precedes
  rcases precedes with ⟨⟨kept, still, constrains⟩, ⟨follower, follows, begins⟩, _⟩
  exact ⟨_, kept, follower, succeeds, place, still, constrains, follows, (begins.accessed (by decide +kernel)).1⟩

/-- Behind the prefix of the call that lacks a speed, the speed is loaded, and behind that of the read, the width. -/
theorem load_follows_prefix :
    prefixedBody.instructions.map Instruction.opcode =
        [.constrained, .callvirt, .constrained, .callvirt, .volatile, .ldsfld, .pop, .ret] ∧
      ∃ report, (wideDoorRewriter.rewriteBody "turn" prefixedBody).result = .ok report ∧
        (wideDoorRewriter.rewriteBody "turn" prefixedBody).body.instructions.map Instruction.opcode =
          [.constrained, .ldcI4_7, .callvirt, .constrained, .callvirt, .volatile, .ldcI4_2, .pop, .ret] ∧
        ∀ place ∈ [1, 6],
          (wideDoorRewriter.rewriteBody "turn" prefixedBody).body.instructions[place]?.map Instruction.operand =
            some .none :=
  ⟨by decide +kernel, ⟨"turn", 2, 0, [], []⟩, by decide +kernel, by decide +kernel, by decide +kernel⟩

end Doors

end Rewriter

end CilRelink
