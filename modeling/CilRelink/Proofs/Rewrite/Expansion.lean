import CilRelink.Proofs.Rewrite.Scan

/-!
# Rewriting expands instructions one by one

What a body becomes can be told without any edit: each instruction makes way for its site, which is the instruction
itself or loads with a replacement behind them, and a position becomes the start of the site of what it named. The
scan in place reaches this body step by step. Between two steps, the front part of the body is expanded already, and
positions have moved as far as the expansion of the front part moves them.
-/

namespace CilRelink

namespace Rewriter

/-- The loads that rules put in front of an instruction. -/
def loadsFor (rewriter : Rewriter) (instruction : Instruction) : List Instruction :=
  match rewriter.judge instruction with
  | some (_, .rewritten loads _ _) => loads
  | _ => []

/-- The number of loads that rules put in among instructions. -/
def injections (rewriter : Rewriter) (instructions : List Instruction) : Nat :=
  (instructions.map fun instruction => (rewriter.loadsFor instruction).length).sum

/-- Where the site of the instruction at `position` starts. -/
def start (rewriter : Rewriter) (instructions : List Instruction) (position : Nat) : Nat :=
  position + rewriter.injections (instructions.take position)

/-- What stands in the place of an instruction when positions are sent through `move`. -/
def site (rewriter : Rewriter) (move : Nat → Nat) (instruction : Instruction) : List Instruction :=
  match rewriter.judge instruction with
  | some (_, .rewritten loads replacement _) => loads ++ [{ replacement with offset := instruction.offset }]
  | _ => [instruction.mapPositions move]

/-- Whether no rule rewrites an instruction. -/
def Keeps (rewriter : Rewriter) (instruction : Instruction) : Prop :=
  rewriter.judge instruction = none ∨
    ∃ rule breakage, rewriter.judge instruction = some (rule, .incompatible breakage)

/-- The body with every instruction expanded to its site. -/
def expand (rewriter : Rewriter) (body : Body) : Body :=
  let start := rewriter.start body.instructions
  { body.mapPositions start start with
    maxStack := deepen body.maxStack (rewriter.injections body.instructions)
    instructions := body.instructions.flatMap (rewriter.site start) }

/-- The body with the first `count` instructions expanded. -/
def expandUpTo (rewriter : Rewriter) (body : Body) (count : Nat) : Body :=
  let front := body.instructions.take count
  let start := rewriter.start front
  { body.mapPositions start start with
    maxStack := deepen body.maxStack (rewriter.injections front)
    instructions := front.flatMap (rewriter.site start) ++
      (body.instructions.drop count).map (·.mapPositions start) }

/-- The sites of the first `count` instructions before any others are expanded. -/
def sitesUpTo (rewriter : Rewriter) (body : Body) (count : Nat) : List Instruction :=
  (body.instructions.take count).flatMap (rewriter.site (rewriter.start (body.instructions.take count)))

/-- What is offered to the rules for the instruction at `position`: it is at the start of its site, and its own
positions are moved by what was put in before it. -/
def offerAt (rewriter : Rewriter) (instructions : List Instruction) :
    (entry : Instruction × Nat) → Nat × Instruction
  | (instruction, position) =>
    (rewriter.start instructions position,
      instruction.mapPositions (rewriter.start (instructions.take position)))

/-- What is found out about the instruction at `position`. -/
def findingAt (rewriter : Rewriter) (instructions : List Instruction) :
    (entry : Instruction × Nat) → Option Finding
  | (instruction, position) =>
    (rewriter.judge instruction).map fun (rule, verdict) => ⟨rewriter.start instructions position, rule, verdict⟩

/-- All that is found out about instructions, one by one. -/
def verdicts (rewriter : Rewriter) (instructions : List Instruction) : List Finding :=
  instructions.zipIdx.filterMap (rewriter.findingAt instructions)

section Sites

variable {rewriter : Rewriter} {instruction : Instruction}

theorem length_site (move : Nat → Nat) :
    (rewriter.site move instruction).length = (rewriter.loadsFor instruction).length + 1 := by
  unfold site loadsFor
  split <;> simp

theorem Keeps.loadsFor_eq_nil (kept : rewriter.Keeps instruction) : rewriter.loadsFor instruction = [] := by
  rcases kept with unjudged | ⟨rule, breakage, decided⟩
  · simp [loadsFor, unjudged]
  · simp [loadsFor, decided]

theorem Keeps.site_eq (kept : rewriter.Keeps instruction) (move : Nat → Nat) :
    rewriter.site move instruction = [instruction.mapPositions move] := by
  rcases kept with unjudged | ⟨rule, breakage, decided⟩
  · simp [site, unjudged]
  · simp [site, decided]

/-- Of a site, only an instruction that was left alone names positions. -/
theorem map_site (first second : Nat → Nat) :
    (rewriter.site first instruction).map (·.mapPositions second) =
      rewriter.site (second ∘ first) instruction := by
  unfold site
  split
  · rename_i rule loads replacement confidence decided
    have rewrites := Rule.rewrites_of_judge (judge_eq_some decided).2
    have loadsStay : loads.map (·.mapPositions second) = loads := by
      refine (List.map_congr_left ?_).trans (List.map_id' loads)
      intro load loadMem
      exact Instruction.mapPositions_eq_self (rewrites.loads_nowhere load loadMem) second
    have replacementStays := Operand.mapPositions_eq_self rewrites.replacement_nowhere second
    rw [List.map_append, loadsStay]
    simp only [List.map_cons, List.map_nil, Instruction.mapPositions, replacementStays]
  · simp [Instruction.mapPositions_mapPositions]

@[simp]
theorem injections_nil : rewriter.injections [] = 0 := rfl

@[simp]
theorem injections_append (front back : List Instruction) :
    rewriter.injections (front ++ back) = rewriter.injections front + rewriter.injections back := by
  simp [injections]

@[simp]
theorem injections_singleton :
    rewriter.injections [instruction] = (rewriter.loadsFor instruction).length := by
  simp [injections]

theorem length_flatMap_site (move : Nat → Nat) (instructions : List Instruction) :
    (instructions.flatMap (rewriter.site move)).length = instructions.length + rewriter.injections instructions := by
  induction instructions with
  | nil => rfl
  | cons instruction instructions ih =>
      have split : instruction :: instructions = [instruction] ++ instructions := rfl
      rw [List.flatMap_cons, List.length_append, ih, length_site, split, injections_append, injections_singleton]
      simp only [List.length_append, List.length_singleton]
      omega

end Sites

section Starts

variable {rewriter : Rewriter} {instructions : List Instruction} {count : Nat}

theorem start_nil : rewriter.start [] = id := by
  funext position
  simp [start]

theorem injections_take_succ {instruction : Instruction} (stands : instructions[count]? = some instruction) :
    rewriter.injections (instructions.take (count + 1)) =
      rewriter.injections (instructions.take count) + (rewriter.loadsFor instruction).length := by
  rw [List.take_add_one, stands, Option.toList_some, injections_append, injections_singleton]

theorem start_succ (rewriter : Rewriter) {instruction : Instruction}
    (stands : instructions[count]? = some instruction) :
    rewriter.start instructions (count + 1) =
      rewriter.start instructions count + ((rewriter.loadsFor instruction).length + 1) := by
  simp only [start, injections_take_succ stands]
  omega

theorem injections_take_le (rewriter : Rewriter) (instructions : List Instruction) (count : Nat) :
    rewriter.injections (instructions.take count) ≤ rewriter.injections instructions := by
  have parts := congrArg rewriter.injections (List.take_append_drop count instructions)
  rw [injections_append] at parts
  omega

/-- Expanding one more instruction moves what is behind the start of its site by the number of its loads. -/
theorem start_take_succ {instruction : Instruction} (stands : instructions[count]? = some instruction) :
    rewriter.start (instructions.take (count + 1)) =
      Body.advance (rewriter.start instructions count) (rewriter.loadsFor instruction).length ∘
        rewriter.start (instructions.take count) := by
  funext position
  simp only [Function.comp_apply, start, Body.advance, List.take_take]
  rcases Nat.lt_or_ge count position with behind | before
  · rw [Nat.min_eq_right (by omega), Nat.min_eq_right (by omega), if_pos (by omega), injections_take_succ stands]
    omega
  · have fewer := injections_take_le rewriter (instructions.take count) position
    rw [List.take_take, Nat.min_eq_left before] at fewer
    rw [Nat.min_eq_left (by omega), Nat.min_eq_left (by omega), if_neg (by omega)]

end Starts

section Steps

variable {rewriter : Rewriter} {body : Body} {count : Nat}

theorem toNat_deepen (maxStack : UInt16) (count : Nat) :
    (deepen maxStack count).toNat = min (maxStack.toNat + count) 65535 :=
  UInt16.toNat_ofNat_of_lt' (Nat.lt_of_le_of_lt (Nat.min_le_right _ _) (by decide))

theorem deepen_zero (maxStack : UInt16) : deepen maxStack 0 = maxStack := by
  have small := maxStack.toNat_lt
  apply UInt16.toNat.inj
  rw [toNat_deepen]
  omega

theorem deepen_deepen (maxStack : UInt16) (first second : Nat) :
    deepen (deepen maxStack first) second = deepen maxStack (first + second) := by
  apply UInt16.toNat.inj
  simp only [toNat_deepen]
  omega

theorem expandUpTo_zero (rewriter : Rewriter) (body : Body) : rewriter.expandUpTo body 0 = body := by
  simp [expandUpTo, start_nil, deepen_zero, Body.mapPositions, Instruction.mapPositions_id, Clause.mapPositions_id]

theorem expandUpTo_of_size_le (past : body.size ≤ count) : rewriter.expandUpTo body count = rewriter.expand body := by
  simp only [Body.size] at past
  simp [expandUpTo, expand, List.take_of_length_le past, List.drop_of_length_le past]

/-- Behind the part that is expanded stands the next instruction, at the start of its site. -/
theorem expandUpTo_shape (rewriter : Rewriter) {instruction : Instruction}
    (stands : body.instructions[count]? = some instruction) :
    (rewriter.expandUpTo body count).instructions =
      rewriter.sitesUpTo body count ++
        instruction.mapPositions (rewriter.start (body.instructions.take count)) ::
          (body.instructions.drop (count + 1)).map
            (·.mapPositions (rewriter.start (body.instructions.take count))) := by
  rcases List.getElem?_eq_some_iff.mp stands with ⟨inside, rfl⟩
  simp only [expandUpTo, sitesUpTo, List.drop_eq_getElem_cons inside, List.map_cons]

theorem length_sitesUpTo (rewriter : Rewriter) (inside : count ≤ body.size) :
    (rewriter.sitesUpTo body count).length = rewriter.start body.instructions count := by
  rw [sitesUpTo, length_flatMap_site, List.length_take_of_le inside]
  rfl

/-- With one more site, everything moves out of the way of its loads, and the site takes the place of its
instruction. -/
theorem expandUpTo_succ {instruction : Instruction} {move : Nat → Nat}
    (stands : body.instructions[count]? = some instruction)
    (moves : move = Body.advance (rewriter.start body.instructions count) (rewriter.loadsFor instruction).length) :
    rewriter.expandUpTo body (count + 1) =
      { (rewriter.expandUpTo body count).mapPositions move move with
        maxStack := deepen (rewriter.expandUpTo body count).maxStack (rewriter.loadsFor instruction).length
        instructions :=
          (rewriter.sitesUpTo body count).map (·.mapPositions move) ++
            rewriter.site (move ∘ rewriter.start (body.instructions.take count)) instruction ++
            ((body.instructions.drop (count + 1)).map
              (·.mapPositions (rewriter.start (body.instructions.take count)))).map (·.mapPositions move) } := by
  have oneMore (next : Nat → Nat) : (body.instructions.take (count + 1)).flatMap (rewriter.site next) =
      (body.instructions.take count).flatMap (rewriter.site next) ++ rewriter.site next instruction := by
    rw [List.take_add_one, stands, Option.toList_some, List.flatMap_append, List.flatMap_singleton]
  have nextStart : rewriter.start (body.instructions.take (count + 1)) =
      move ∘ rewriter.start (body.instructions.take count) := by
    rw [moves, start_take_succ stands]
  simp only [expandUpTo, sitesUpTo, injections_take_succ stands, deepen_deepen, Body.mapPositions,
    List.map_flatMap, map_site, oneMore, nextStart, List.map_map, Function.comp_def,
    Instruction.mapPositions_mapPositions, Clause.mapPositions_mapPositions]

/-- An instruction that is not rewritten is its own site. -/
theorem expandUpTo_succ_of_kept {instruction : Instruction} (stands : body.instructions[count]? = some instruction)
    (kept : rewriter.Keeps instruction) :
    rewriter.expandUpTo body (count + 1) = rewriter.expandUpTo body count := by
  have still : id = Body.advance (rewriter.start body.instructions count) (rewriter.loadsFor instruction).length := by
    rw [kept.loadsFor_eq_nil]
    exact (Body.advance_zero _).symm
  rw [expandUpTo_succ stands still, kept.loadsFor_eq_nil, kept.site_eq, List.length_nil, deepen_zero]
  have shape := expandUpTo_shape rewriter stands
  simp only [Body.mapPositions, Instruction.mapPositions_id, Clause.mapPositions_id, List.map_id', Function.id_comp,
    List.append_assoc, List.singleton_append, ← shape]

/-- Carrying out the verdict on the next instruction expands that instruction, and nothing else. -/
theorem carryOut_expandUpTo {instruction : Instruction} {rule : Rule} {verdict : Verdict} {changed : Body}
    (stands : body.instructions[count]? = some instruction)
    (decided : rewriter.judge instruction = some (rule, verdict))
    (carried : (rewriter.expandUpTo body count).carryOut (rewriter.start body.instructions count) verdict =
      .ok changed) : changed = rewriter.expandUpTo body (count + 1) := by
  have inside : count ≤ body.size := Nat.le_of_lt (List.getElem?_eq_some_iff.mp stands).1
  have place := length_sitesUpTo rewriter inside
  cases verdict with
  | incompatible breakage =>
      cases carried
      exact (expandUpTo_succ_of_kept stands (.inr ⟨rule, breakage, decided⟩)).symm
  | rewritten loads replacement confidence =>
      have rewrites := Rule.rewrites_of_judge (judge_eq_some decided).2
      have result := Body.carryOut_rewritten_eq_ok (expandUpTo_shape rewriter stands) rewrites.loads_nowhere
        (by rwa [place])
      rw [result, expandUpTo_succ stands rfl, place]
      simp only [loadsFor, site, decided]
      rfl

theorem span_eq {instruction : Instruction} {rule : Rule} {verdict : Verdict}
    (decided : rewriter.judge instruction = some (rule, verdict)) :
    verdict.span = (rewriter.loadsFor instruction).length + 1 := by
  cases verdict with
  | incompatible breakage => simp [loadsFor, decided, Verdict.span]
  | rewritten loads replacement confidence => simp [loadsFor, decided, Verdict.span]

end Steps

section Runs

variable {rewriter : Rewriter} {body : Body} {count : Nat}

theorem zipIdx_drop {instruction : Instruction} (stands : body.instructions[count]? = some instruction) :
    body.instructions.zipIdx.drop count = (instruction, count) :: body.instructions.zipIdx.drop (count + 1) := by
  rcases List.getElem?_eq_some_iff.mp stands with ⟨inside, rfl⟩
  rw [List.drop_eq_getElem_cons (by simpa using inside)]
  simp

theorem getElem?_expandUpTo {instruction : Instruction} (stands : body.instructions[count]? = some instruction) :
    (rewriter.expandUpTo body count).instructions[rewriter.start body.instructions count]? =
      some (instruction.mapPositions (rewriter.start (body.instructions.take count))) := by
  have inside : count ≤ body.size := Nat.le_of_lt (List.getElem?_eq_some_iff.mp stands).1
  have place := length_sitesUpTo rewriter inside
  rw [expandUpTo_shape rewriter stands, List.getElem?_append_right (by omega), place, Nat.sub_self,
    List.getElem?_cons_zero]

theorem getElem?_expandUpTo_of_size_le (past : body.size ≤ count) :
    (rewriter.expandUpTo body count).instructions[rewriter.start body.instructions count]? = none := by
  rw [expandUpTo_of_size_le past, List.getElem?_eq_none_iff]
  simp only [Body.size] at past
  simp only [expand, length_flatMap_site, start, List.take_of_length_le past]
  omega

/-- From a body with the first `count` instructions expanded, a scan that does not fail offers the other instructions
in their order and leaves the expanded body behind. -/
theorem scanFrom_expandUpTo (rewriter : Rewriter) (body : Body) (count : Nat)
    (succeeds : (rewriter.scanFrom (rewriter.start body.instructions count)
      (rewriter.expandUpTo body count)).failure = none) :
    rewriter.scanFrom (rewriter.start body.instructions count) (rewriter.expandUpTo body count) =
      { offered := (body.instructions.zipIdx.drop count).map (rewriter.offerAt body.instructions)
        findings := (body.instructions.zipIdx.drop count).filterMap (rewriter.findingAt body.instructions)
        failure := none
        body := rewriter.expand body } := by
  induction remaining : body.size - count generalizing count with
  | zero =>
      have past : body.size ≤ count := by omega
      have nothing : body.instructions.zipIdx.drop count = [] :=
        List.drop_of_length_le (by simpa [Body.size] using past)
      rw [scanFrom_of_end (getElem?_expandUpTo_of_size_le past), expandUpTo_of_size_le past, nothing]
      rfl
  | succ remaining ih =>
      have inside : count < body.instructions.length := by
        change count < body.size
        omega
      have stands : body.instructions[count]? = some body.instructions[count] := List.getElem?_eq_getElem inside
      generalize body.instructions[count] = instruction at stands
      rw [scanFrom_of_inside (getElem?_expandUpTo stands), judge_mapPositions] at succeeds ⊢
      rw [zipIdx_drop stands, List.map_cons, List.filterMap_cons]
      cases decided : rewriter.judge instruction with
      | none =>
          have same := expandUpTo_succ_of_kept stands (.inl decided)
          have next := start_succ rewriter stands
          simp only [Keeps.loadsFor_eq_nil (.inl decided), List.length_nil] at next
          simp only [decided] at succeeds
          rw [← next, ← same] at succeeds ⊢
          have rest := ih (count + 1) succeeds (by omega)
          simp only [rest, findingAt, decided]
          rfl
      | some claim =>
          rcases claim with ⟨rule, verdict⟩
          simp only [decided] at succeeds ⊢
          cases carried : (rewriter.expandUpTo body count).carryOut
            (rewriter.start body.instructions count) verdict with
          | error error =>
              simp only [carried] at succeeds
              cases succeeds
          | ok changed =>
              have next := start_succ rewriter stands
              rw [← span_eq decided] at next
              simp only [carried, carryOut_expandUpTo stands decided carried, ← next] at succeeds ⊢
              have rest := ih (count + 1) succeeds (by omega)
              simp only [rest, findingAt, decided]
              rfl

/-- A scan that does not fail offers each instruction of the body once, in order, and leaves the expanded body. -/
theorem scan_eq_expand (succeeds : (rewriter.scan body).failure = none) :
    rewriter.scan body =
      { offered := body.instructions.zipIdx.map (rewriter.offerAt body.instructions)
        findings := rewriter.verdicts body.instructions
        failure := none
        body := rewriter.expand body } := by
  have first : rewriter.start body.instructions 0 = 0 := rfl
  have run := scanFrom_expandUpTo rewriter body 0
  rw [first, expandUpTo_zero] at run
  exact run succeeds

theorem finish_eq_ok {name : String} {done : List Finding} {report : MethodReport}
    (finished : (finish name done body).result = .ok report) :
    report = .ofFindings name done report.widened ∧
      (finish name done body).body = if report.isModified then body.layout.2 else body := by
  unfold finish at finished ⊢
  split
  · rename_i untouched
    rw [if_pos untouched] at finished
    cases finished
    refine ⟨rfl, ?_⟩
    rw [if_neg (by simpa using untouched)]
  · rename_i touched
    rw [if_neg touched] at finished
    rcases laid : body.layout with ⟨outcome, placed⟩
    simp only [laid] at finished ⊢
    cases outcome with
    | error error => cases finished
    | ok stats =>
        cases finished
        have modified : (MethodReport.ofFindings name done 0).isModified = true := by simpa using touched
        exact ⟨rfl, (if_pos modified).symm⟩

/-- Rewriting that succeeds is a scan that came to its end. -/
theorem rewriteBody_eq_conclude {name : String} {report : MethodReport}
    (succeeds : (rewriter.rewriteBody name body).result = .ok report) :
    rewriter.rewriteBody name body = (rewriter.scan body).conclude name ∧ (rewriter.scan body).failure = none := by
  have scanned : rewriter.rewriteBody name body = (rewriter.scan body).conclude name := by
    rw [rewriteBody_eq_scan] at succeeds ⊢
    split
    · rename_i invalid
      rw [invalid] at succeeds
      cases succeeds
    · rfl
  refine ⟨scanned, ?_⟩
  rw [scanned] at succeeds
  unfold Scan.conclude at succeeds
  split at succeeds
  · cases succeeds
  · assumption

theorem rewriteBody_eq_finish {name : String} {report : MethodReport}
    (succeeds : (rewriter.rewriteBody name body).result = .ok report) :
    rewriter.rewriteBody name body = finish name (rewriter.verdicts body.instructions) (rewriter.expand body) := by
  rcases rewriteBody_eq_conclude succeeds with ⟨scanned, complete⟩
  rw [scanned, scan_eq_expand complete]
  rfl

/-- Where rewriting a body succeeds, it has scanned the body in place; it has offered to its rules each instruction
there was before, once and in order, and none that was put in; and before the layout, it has expanded the body.
Findings are at the starts of the sites of what they are about. -/
theorem rewriteBody_refines_expansion (rewriter : Rewriter) (name : String) (body : Body) {report : MethodReport}
    (succeeds : (rewriter.rewriteBody name body).result = .ok report) :
    rewriter.rewriteBody name body = (rewriter.scan body).conclude name ∧
      (rewriter.scan body).offered = body.instructions.zipIdx.map (rewriter.offerAt body.instructions) ∧
      (rewriter.scan body).body = rewriter.expand body ∧
      (rewriter.expand body).maxStack.toNat =
        min (body.maxStack.toNat + rewriter.injections body.instructions) 65535 ∧
      report = .ofFindings name (rewriter.verdicts body.instructions) report.widened ∧
      (rewriter.rewriteBody name body).body =
        if report.isModified then (rewriter.expand body).layout.2 else rewriter.expand body := by
  rcases rewriteBody_eq_conclude succeeds with ⟨scanned, complete⟩
  have finished := rewriteBody_eq_finish succeeds
  rw [finished] at succeeds
  rcases finish_eq_ok succeeds with ⟨reported, final⟩
  rw [← finished] at final
  have run := scan_eq_expand complete
  refine ⟨scanned, ?_, ?_, toNat_deepen _ _, reported, final⟩
  · rw [run]
  · rw [run]

/-- A host with a type whose method takes a speed that callers may leave out. -/
def doorHost : HostTable :=
  let door : HostType := (HostType.simple "" "Door").inAssembly "House"
  let swing := ((HostMethod.plain "swing" .void).withParameter "angle" .int32).withDefault "speed" .int32 (.int32 7)
  (HostTable.empty.register ((HostDefinition.empty door).withMethod swing)).table

/-- A call without a speed that is jumped to, and a jump behind it. -/
def doorBody : Body :=
  .ofInstructions
    [.unplaced .brS (.target 1),
      .unplaced .callvirt (.method
        ⟨.named ⟨"", "Door", none, [], some "House"⟩, "swing", TypeRef.void, [HostType.int32.reference], true, []⟩),
      .unplaced .brS (.target 2)]

theorem rewriteBody_refines_expansion_door :
    let rewriter : Rewriter := ⟨[.completeCalls, .reportBreakage], doorHost, .empty, .strict⟩
    (rewriter.rewriteBody "turn" doorBody).result = .ok ⟨"turn", 1, 0, [], []⟩ ∧
      (rewriter.scan doorBody).offered.map Prod.fst = [0, 1, 3] ∧
      (rewriter.rewriteBody "turn" doorBody).body = (rewriter.expand doorBody).layout.2 ∧
      (rewriter.expand doorBody).instructions.map Instruction.jumpPositions = [[1], [], [], [3]] := by
  intro rewriter
  have succeeds : (rewriter.rewriteBody "turn" doorBody).result = .ok ⟨"turn", 1, 0, [], []⟩ := by decide +kernel
  rcases rewriteBody_refines_expansion rewriter "turn" doorBody succeeds with ⟨_, offered, _, _, _, final⟩
  refine ⟨succeeds, ?_, final, by decide +kernel⟩
  rw [offered]
  decide +kernel

end Runs

end Rewriter

end CilRelink
