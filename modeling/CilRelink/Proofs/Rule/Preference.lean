import CilRelink.Proofs.Rule.Rewrites

/-!
# Which redirection comes first

A rule that redirects tries one way after the other and acts on the first that it may. The ways and their order are
fixed by the maps, the facades and the instruction; the settings only say which of them may be acted on. So a match that
merely resembles, where it is allowed, goes before every certain one that is tried later, and allowing such matches
keeps a certain rewrite just if none comes before it or the first one that does leads to the same.
-/

namespace CilRelink

namespace RuleContext

/-- The same with matches that merely resemble allowed or not. -/
def allowing (context : RuleContext) (heuristic : Bool) : RuleContext :=
  { context with settings := { context.settings with allowHeuristic := heuristic } }

@[simp]
theorem accepts_exact (context : RuleContext) : context.accepts .exact = true := by
  simp [accepts]

theorem accepts_allowing_true (context : RuleContext) (confidence : Confidence) :
    (context.allowing true).accepts confidence = true := by
  simp [accepts, allowing]

theorem accepts_allowing_false_iff (context : RuleContext) (confidence : Confidence) :
    (context.allowing false).accepts confidence = true ↔ confidence = .exact := by
  simp [accepts, allowing]

end RuleContext

namespace Redirections

/-- The images of the entries of a map that match, in the order in which the entries were added. -/
def imagesOf {Key Entry Image : Type} (compare : Key → Option Confidence) (image : Entry → Image)
    (entries : List (Key × Entry)) : List (Image × Confidence) :=
  entries.filterMap fun (key, entry) => (compare key).map fun confidence => (image entry, confidence)

/-- An image that does not depend on a resemblance. -/
def certain {Image : Type} (image : Option Image) : List (Image × Confidence) :=
  (image.map (·, Confidence.exact)).toList

/-- The images as something else. -/
def eachAs {Image Other : Type} (wrap : Image → Other) (images : List (Image × Confidence)) :
    List (Other × Confidence) :=
  images.map fun (image, confidence) => (wrap image, confidence)

/-- What may take the place of a method in the map of methods. -/
def methodImages (redirections : Redirections) (reference : MethodRef) : List (MethodRef × Confidence) :=
  imagesOf (·.compare reference)
    (fun new =>
      if new.genericArguments.isEmpty then { new with genericArguments := reference.genericArguments } else new)
    redirections.methods

/-- What may take the place of a field that is still a field. -/
def fieldImages (redirections : Redirections) (reference : FieldRef) : List (FieldRef × Confidence) :=
  imagesOf (·.compare reference) id redirections.fields ++ certain (reference.redirectTypes redirections.types)

/-- What may take the place of a called method. -/
def calleeImages (redirections : Redirections) (context : RuleContext) (reference : MethodRef) :
    List (MethodRef × Confidence) :=
  redirections.methodImages reference ++ certain (facadeMethod context reference) ++
    certain (reference.redirectTypes redirections.types)

/-- What may take the place of a symbol that is merely named. -/
def symbolImages (redirections : Redirections) : Symbol → List (Symbol × Confidence)
  | .type reference => eachAs .type (certain (reference.redirect redirections.types))
  | .method reference =>
    eachAs .method (redirections.methodImages reference ++ certain (reference.redirectTypes redirections.types))
  | .field reference => eachAs .field (redirections.fieldImages reference)

/-- What may take the place of an operand of the same kind, in the order in which it is tried. -/
def operandImages (redirections : Redirections) (context : RuleContext) : Operand → List (Operand × Confidence)
  | .method reference => eachAs .method (redirections.calleeImages context reference)
  | .field reference => eachAs .field (redirections.fieldImages reference)
  | .type reference => eachAs .type (certain (reference.redirect redirections.types))
  | .symbol reference => eachAs .symbol (redirections.symbolImages reference)
  | _ => []

/-- A way to redirect an instruction: what takes its place or why nothing can, and the confidence in the match. -/
structure Way where
  outcome : Except Breakage Instruction
  confidence : Confidence

/-- The verdict of a rule that acts on it. -/
def Way.verdict (way : Way) : Verdict :=
  match way.outcome with
  | .ok new => .rewritten [] new way.confidence
  | .error breakage => .incompatible breakage

theorem Way.verdict_eq_rewritten_iff {way : Way} {loads : List Instruction} {new : Instruction}
    {confidence : Confidence} :
    way.verdict = .rewritten loads new confidence ↔
      way.outcome = .ok new ∧ loads = [] ∧ way.confidence = confidence := by
  rcases way with ⟨outcome, weight⟩
  cases outcome with
  | error breakage => simp [verdict]
  | ok image =>
      simp only [verdict, Verdict.rewritten.injEq, Except.ok.injEq]
      tauto

/-- The ways through a property that took the place of a field. -/
def accessorWays (redirections : Redirections) (instruction : Instruction) : List Way :=
  match instruction.operand with
  | .field reference =>
    (imagesOf (·.compare reference) id redirections.properties).map fun ((getter, setter), confidence) =>
      ⟨accessorCall instruction reference getter setter, confidence⟩
  | _ => []

/-- The ways to put another operand in the place of that of the instruction. -/
def operandWays (redirections : Redirections) (context : RuleContext) (instruction : Instruction) : List Way :=
  if instruction.isWellFormed then
    (redirections.operandImages context instruction.operand).map fun (operand, confidence) =>
      ⟨.ok (.unplaced instruction.opcode operand), confidence⟩
  else []

/-- All ways to redirect an instruction, in the order in which they are tried. -/
def ways (redirections : Redirections) (context : RuleContext) (instruction : Instruction) : List Way :=
  redirections.accessorWays instruction ++ redirections.operandWays context instruction

/-- The settings have no part in what the ways are. -/
@[simp]
theorem ways_allowing (redirections : Redirections) (context : RuleContext) (heuristic : Bool)
    (instruction : Instruction) :
    redirections.ways (context.allowing heuristic) instruction = redirections.ways context instruction := rfl

section FirstMatch

variable {Key Entry Image Other : Type} (context : RuleContext)

theorem findSome?_accepted (compare : Key → Option Confidence) (image : Entry → Image)
    (entries : List (Key × Entry)) :
    (entries.findSome? fun (key, entry) =>
        (accepted context (compare key)).map fun confidence => (image entry, confidence)) =
      (imagesOf compare image entries).find? (context.accepts ·.2) := by
  induction entries with
  | nil => rfl
  | cons entry entries ih =>
      rcases entry with ⟨key, entry⟩
      cases compared : compare key with
      | none => simpa [imagesOf, accepted, compared] using ih
      | some confidence =>
          cases allowed : context.accepts confidence with
          | true => simp [imagesOf, accepted, compared, allowed, Option.filter]
          | false => simpa [imagesOf, accepted, compared, allowed, Option.filter] using ih

@[simp]
theorem find?_certain (image : Option Image) :
    (certain image).find? (context.accepts ·.2) = image.map (·, Confidence.exact) := by
  cases image <;> simp [certain]

@[simp]
theorem find?_eachAs (wrap : Image → Other) (images : List (Image × Confidence)) :
    (eachAs wrap images).find? (context.accepts ·.2) =
      (images.find? (context.accepts ·.2)).map fun (image, confidence) => (wrap image, confidence) := by
  simp only [eachAs, List.find?_map, Function.comp_def]

end FirstMatch

section Acceptance

variable (redirections : Redirections) (context : RuleContext)

@[simp]
theorem find?_methodImages (reference : MethodRef) :
    (redirections.methodImages reference).find? (context.accepts ·.2) = redirections.mappedMethod context reference :=
  (findSome?_accepted context (fun old : MethodRef => old.compare reference) _ redirections.methods).symm

@[simp]
theorem find?_fieldImages (reference : FieldRef) :
    (redirections.fieldImages reference).find? (context.accepts ·.2) =
      redirections.redirectField context reference := by
  have mapped : _ = redirections.mappedField context reference :=
    (findSome?_accepted context (fun old : FieldRef => old.compare reference) id redirections.fields).symm
  simp [fieldImages, List.find?_append, mapped, redirectField]

@[simp]
theorem find?_calleeImages (reference : MethodRef) :
    (redirections.calleeImages context reference).find? (context.accepts ·.2) =
      redirections.redirectMethod context reference := by
  simp [calleeImages, redirectMethod, List.find?_append]

@[simp]
theorem find?_symbolImages (symbol : Symbol) :
    (redirections.symbolImages symbol).find? (context.accepts ·.2) = redirections.redirectSymbol context symbol := by
  cases symbol with
  | type reference => simp [symbolImages, redirectSymbol, Function.comp_def]
  | method reference => simp [symbolImages, redirectSymbol, List.find?_append]
  | field reference => simp [symbolImages, redirectSymbol]

theorem find?_operandWays (instruction : Instruction) :
    (redirections.operandWays context instruction).find? (context.accepts ·.confidence) =
      ((redirections.operandImages context instruction.operand).find? (context.accepts ·.2)).bind
        fun (operand, confidence) =>
          if instruction.isWellFormed then some ⟨.ok (.unplaced instruction.opcode operand), confidence⟩
          else none := by
  unfold operandWays
  split
  · simp only [List.find?_map, Function.comp_def]
    cases (redirections.operandImages context instruction.operand).find? (context.accepts ·.2) <;> rfl
  · simp

theorem find?_accessorWays {instruction : Instruction} {reference : FieldRef}
    (names : instruction.operand = .field reference) :
    (redirections.accessorWays instruction).find? (context.accepts ·.confidence) =
      (redirections.property? context reference).map fun ((getter, setter), confidence) =>
        ⟨accessorCall instruction reference getter setter, confidence⟩ := by
  have became : _ = redirections.property? context reference :=
    (findSome?_accepted context (fun old : FieldRef => old.compare reference) id redirections.properties).symm
  rw [accessorWays, names, ← became, List.find?_map]
  rfl

/-- Operands of one kind fit an opcode all or not at all, so it is the same whether the image that is found is checked
or the instruction. -/
theorem map_checked {Image : Type} (instruction : Instruction) (wrap : Image → Operand)
    (sameKind : ∀ image, (wrap image).fits instruction.opcode.operandKind = true ↔ instruction.isWellFormed = true)
    (found : Option (Image × Confidence)) :
    (found.bind fun (image, confidence) =>
        (Instruction.checked instruction.opcode (wrap image)).toOption.map (·, confidence)).map
          (fun (new, confidence) => Verdict.rewritten [] new confidence) =
      ((found.map fun (image, confidence) => (wrap image, confidence)).bind fun (operand, confidence) =>
        if instruction.isWellFormed then some ⟨.ok (.unplaced instruction.opcode operand), confidence⟩
        else none).map Way.verdict := by
  rcases found with _ | ⟨image, confidence⟩
  · rfl
  · simp only [Option.bind_some, Option.map_some, Instruction.checked, sameKind]
    split <;> rfl

/-- The rule acts on the first way that it may. -/
theorem judge_eq_find? (instruction : Instruction) :
    redirections.judge context instruction =
      ((redirections.ways context instruction).find? (context.accepts ·.confidence)).map Way.verdict := by
  rcases instruction with ⟨offset, opcode, operand⟩
  rw [ways, List.find?_append, find?_operandWays]
  cases operand with
  | method reference =>
      rw [operandImages, find?_eachAs, find?_calleeImages]
      exact map_checked ⟨offset, opcode, .method reference⟩ .method (by simp [Instruction.isWellFormed]) _
  | field reference =>
      rw [operandImages, find?_eachAs, find?_fieldImages, find?_accessorWays redirections context rfl]
      cases became : redirections.property? context reference with
      | none =>
          simp only [judge, replacement, became]
          exact map_checked ⟨offset, opcode, .field reference⟩ .field (by simp [Instruction.isWellFormed]) _
      | some found =>
          rcases found with ⟨⟨getter, setter⟩, confidence⟩
          simp only [judge, replacement, became, Option.map_some, Option.some_or, Way.verdict]
          cases accessorCall ⟨offset, opcode, .field reference⟩ reference getter setter <;> rfl
  | type reference =>
      rw [operandImages, find?_eachAs, find?_certain]
      have certainly := map_checked ⟨offset, opcode, .type reference⟩ .type (by simp [Instruction.isWellFormed])
        ((reference.redirect redirections.types).map (·, .exact))
      rw [Option.bind_map] at certainly
      exact certainly
  | symbol reference =>
      rw [operandImages, find?_eachAs, find?_symbolImages]
      exact map_checked ⟨offset, opcode, .symbol reference⟩ .symbol (by simp [Instruction.isWellFormed]) _
  | _ => rfl

/-- Where every match may be acted on, the rule acts on the first way of all. -/
theorem judge_allowing_true (instruction : Instruction) :
    redirections.judge (context.allowing true) instruction =
      (redirections.ways context instruction).head?.map Way.verdict := by
  rw [judge_eq_find?, ways_allowing]
  cases redirections.ways context instruction with
  | nil => rfl
  | cons way ways => simp [RuleContext.accepts_allowing_true]

/-- Where only certain matches may be acted on, a rewrite goes the first certain way. -/
theorem exists_ways_of_judge {instruction new : Instruction} {loads : List Instruction} {confidence : Confidence}
    (decided : redirections.judge (context.allowing false) instruction = some (.rewritten loads new confidence)) :
    loads = [] ∧ confidence = .exact ∧
      ∃ weak rest, redirections.ways context instruction = weak ++ ⟨.ok new, .exact⟩ :: rest ∧
        ∀ way ∈ weak, way.confidence = .heuristic := by
  rw [judge_eq_find?, ways_allowing, Option.map_eq_some_iff] at decided
  rcases decided with ⟨⟨outcome, weight⟩, found, acted⟩
  rcases Way.verdict_eq_rewritten_iff.mp acted with ⟨made, rfl, rfl⟩
  rcases List.find?_eq_some_iff_append.mp found with ⟨acceptable, weak, rest, split, refused⟩
  have exactly := (context.accepts_allowing_false_iff _).mp acceptable
  refine ⟨rfl, exactly, weak, rest, ?_, ?_⟩
  · rw [split, ← made, ← exactly]
  · intro way wayMem
    have notExact : way.confidence ≠ .exact := by
      rw [Ne, ← context.accepts_allowing_false_iff]
      simpa using refused way wayMem
    cases sure : way.confidence with
    | heuristic => rfl
    | exact => exact absurd sure notExact

end Acceptance

/-- Allowing matches that merely resemble does not stop a certain rewrite, but the first of them that is tried before
it takes its place: the instruction becomes the same just if there is none or that one makes the same of it. -/
theorem judge_allowing_takes_first {redirections : Redirections} {context : RuleContext}
    {instruction new : Instruction} {loads : List Instruction} {confidence : Confidence}
    (decided : (Rule.redirect redirections).judge (context.allowing false) instruction =
      some (.rewritten loads new confidence)) :
    loads = [] ∧ confidence = .exact ∧
      ∃ weak rest, redirections.ways context instruction = weak ++ ⟨.ok new, .exact⟩ :: rest ∧
        (∀ way ∈ weak, way.confidence = .heuristic) ∧
        (Rule.redirect redirections).judge (context.allowing true) instruction =
          some (weak.head?.getD ⟨.ok new, .exact⟩).verdict ∧
        ((∃ weight, (Rule.redirect redirections).judge (context.allowing true) instruction =
            some (.rewritten [] new weight)) ↔ ∀ way ∈ weak.head?, way.outcome = .ok new) := by
  rcases exists_ways_of_judge redirections context decided with ⟨noLoads, exactly, weak, rest, split, weakly⟩
  have first : (Rule.redirect redirections).judge (context.allowing true) instruction =
      some (weak.head?.getD ⟨.ok new, .exact⟩).verdict := by
    rw [Rule.judge, judge_allowing_true, split]
    cases weak <;> rfl
  refine ⟨noLoads, exactly, weak, rest, split, weakly, first, ?_⟩
  rw [first]
  simp only [Option.some.injEq, Way.verdict_eq_rewritten_iff, true_and, exists_and_left, exists_eq', and_true]
  cases weak <;> simp

section NetLists

/-- A generic parameter of a type, with a name or without. -/
def typeParameter (name : Option String) : TypeRef := .placeholder ⟨.type, 0, name⟩

/-- A method of lists over a generic parameter that takes an element. -/
def netListMethod (name : String) (parameter : Option String) : MethodRef :=
  ⟨.named ⟨"Netcode", "NetList`1", none, [typeParameter parameter], none⟩, name, .void,
    [typeParameter parameter], true, []⟩

/-- Two entries for one method: its definition, which compiled references merely resemble, and behind it the reference
as compiled code has it. -/
def netLists : Redirections :=
  (empty.mapMethod (netListMethod "Add" (some "T")) (netListMethod "AddItem" none)).mapMethod
    (netListMethod "Add" none) (netListMethod "Append" none)

/-- A call of a method of lists from compiled code. -/
def netListCall (name : String) : Instruction := .unplaced .callvirt (.method (netListMethod name none))

/-- Rules that go by nothing but their own maps. -/
def noContext : RuleContext := ⟨.empty, .empty, .strict⟩

/-- What is rewritten for certain can become something else when resemblance is enough. -/
theorem judge_allowing_differs :
    ¬ ∀ (redirections : Redirections) (context : RuleContext) (instruction new : Instruction)
        (loads : List Instruction) (confidence : Confidence),
      (Rule.redirect redirections).judge (context.allowing false) instruction =
          some (.rewritten loads new confidence) →
        ∃ weight, (Rule.redirect redirections).judge (context.allowing true) instruction =
          some (.rewritten loads new weight) := by
  intro keeps
  have certainly : (Rule.redirect netLists).judge (noContext.allowing false) (netListCall "Add") =
      some (.rewritten [] (netListCall "Append") .exact) := by decide +kernel
  have resembling : (Rule.redirect netLists).judge (noContext.allowing true) (netListCall "Add") =
      some (.rewritten [] (netListCall "AddItem") .heuristic) := by decide +kernel
  rcases keeps _ _ _ _ _ _ certainly with ⟨weight, same⟩
  rw [resembling] at same
  have sameCall : netListCall "AddItem" = netListCall "Append" := by
    simp only [Option.some.injEq, Verdict.rewritten.injEq] at same
    exact same.2.1
  exact absurd sameCall (by decide +kernel)

theorem judge_allowing_takes_first_netLists :
    (Rule.redirect netLists).judge (noContext.allowing false) (netListCall "Add") =
        some (.rewritten [] (netListCall "Append") .exact) ∧
      ∃ weak rest, netLists.ways noContext (netListCall "Add") =
          weak ++ ⟨.ok (netListCall "Append"), .exact⟩ :: rest ∧
        (∀ way ∈ weak, way.confidence = .heuristic) ∧
        (Rule.redirect netLists).judge (noContext.allowing true) (netListCall "Add") =
          some (weak.head?.getD ⟨.ok (netListCall "Append"), .exact⟩).verdict := by
  have certainly : (Rule.redirect netLists).judge (noContext.allowing false) (netListCall "Add") =
      some (.rewritten [] (netListCall "Append") .exact) := by decide +kernel
  rcases judge_allowing_takes_first certainly with ⟨_, _, weak, rest, split, weakly, first, _⟩
  exact ⟨certainly, weak, rest, split, weakly, first⟩

end NetLists

end Redirections

end CilRelink
