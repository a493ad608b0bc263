import CilRelink.Proofs.Body.Requests
import CilRelink.Proofs.Rewrite.Binary
import CilRelink.Proofs.Rewrite.Untouched

/-!
# What a rejection leaves behind

Bodies are rewritten where they are, and tokens are handed out while bodies are encoded, before it is known whether
the whole comes to a good end. Nothing is taken back when it does not. What is left behind is nevertheless told by
what was done up to the error: bodies that were reached are as rewriting each by itself leaves them and the others
are as before, and a scope has lost nothing and gained only what the rewritten bodies name.
-/

namespace CilRelink

namespace Rewriter

variable {rewriter : Rewriter} {bodies after : List (String × Body)} {error : Error}

/-! ## Bodies -/

/-- What becomes of bodies with their names when rewriting them ends in an error: either one of them is defective, or
all are rewritten and references stay broken. -/
inductive LeavesBodies (rewriter : Rewriter) (bodies : List (String × Body)) : Error → List (String × Body) → Prop where
  | defective {front back : List (String × Body)} {name : String} {body : Body} {error : Error}
      (reached : bodies = front ++ (name, body) :: back)
      (fine : ∀ entry ∈ front, ∃ report, (rewriter.rewriteBody entry.1 entry.2).result = .ok report)
      (fails : (rewriter.rewriteBody name body).result = .error error) :
      LeavesBodies rewriter bodies error
        (front.map (fun entry => (entry.1, (rewriter.rewriteBody entry.1 entry.2).body)) ++
          (name, (rewriter.rewriteBody name body).body) :: back)
  | incompatible {reports : List MethodReport}
      (fine : List.Forall₂ (fun entry report => (rewriter.rewriteBody entry.1 entry.2).result = .ok report) bodies
        reports)
      (broken : ∃ report ∈ reports, report.isCompatible = false) :
      LeavesBodies rewriter bodies (.incompatible ⟨reports⟩)
        (bodies.map fun entry => (entry.1, (rewriter.rewriteBody entry.1 entry.2).body))

theorem leavesBodies_of_rewriteAll (fails : rewriter.rewriteAll bodies = (.error error, after)) :
    rewriter.LeavesBodies bodies error after := by
  -- the bodies before are kept apart, because the first error ends the recursion
  suffices ∃ front name body back, bodies = front ++ (name, body) :: back ∧
      (∀ entry ∈ front, ∃ report, (rewriter.rewriteBody entry.1 entry.2).result = .ok report) ∧
      (rewriter.rewriteBody name body).result = .error error ∧
      after = front.map (fun entry => (entry.1, (rewriter.rewriteBody entry.1 entry.2).body)) ++
        (name, (rewriter.rewriteBody name body).body) :: back by
    rcases this with ⟨front, name, body, back, reached, fine, failed, rfl⟩
    exact .defective reached fine failed
  induction bodies generalizing after with
  | nil => cases fails
  | cons entry bodies ih =>
      rcases entry with ⟨name, body⟩
      simp only [rewriteAll] at fails
      cases first : (rewriter.rewriteBody name body).result with
      | error cause =>
          simp only [first] at fails
          cases fails
          exact ⟨[], name, body, bodies, rfl, by simp, first, rfl⟩
      | ok report =>
          rcases rest : rewriter.rewriteAll bodies with ⟨outcome, others⟩
          simp only [first, rest] at fails
          cases outcome with
          | ok reports => cases fails
          | error cause =>
              cases fails
              rcases ih rest with ⟨front, other, body', back, rfl, fine, failed, rfl⟩
              refine ⟨(name, body) :: front, other, body', back, rfl, ?_, failed, rfl⟩
              intro entry entryMem
              rcases List.mem_cons.mp entryMem with rfl | entryMem
              · exact ⟨report, first⟩
              · exact fine entry entryMem

theorem check_eq_error {report : Report} (refused : rewriter.check report = .error error) :
    error = .incompatible report ∧ ∃ method ∈ report.methods, method.isCompatible = false := by
  simp only [check] at refused
  split at refused
  · rename_i rejected
    cases refused
    refine ⟨rfl, ?_⟩
    simpa [Report.isCompatible] using (Bool.and_eq_true_iff.mp rejected).2
  · cases refused

theorem leavesBodies_of_rewriteBodies (fails : rewriter.rewriteBodies bodies = (.error error, after)) :
    rewriter.LeavesBodies bodies error after := by
  rcases rewrites : rewriter.rewriteAll bodies with ⟨outcome, rewritten⟩
  simp only [rewriteBodies, rewrites] at fails
  cases outcome with
  | error cause =>
      cases fails
      exact leavesBodies_of_rewriteAll rewrites
  | ok reports =>
      rcases Prod.mk.inj fails with ⟨refused, rfl⟩
      rcases rewriteAll_eq_ok rewrites with ⟨rfl, fine⟩
      rcases check_eq_error refused with ⟨rfl, broken⟩
      exact .incompatible fine broken

/-! ## Scopes -/

/-- What those of the bodies name that were modified. -/
def NamedByModified (bodies : List (String × Body)) (reports : List MethodReport) (operand : Operand) : Prop :=
  ∃ entry ∈ bodies.zip reports, entry.2.isModified = true ∧ entry.1.2.Names operand

/-- What becomes of a scope when rewriting a binary ends in an error: it is not touched before encoding, and
encoding makes it grow. -/
inductive LeavesScope (rewriter : Rewriter) (resolver : Resolver) (methods : List RawMethod) (before : Scope) :
    Error → Scope → Prop where
  | undecodable {error : Error}
      (fails : (methods.mapM fun method => (method.name, ·) <$> Body.decode resolver method.bytes) = .error error) :
      LeavesScope rewriter resolver methods before error before
  | defective {bodies after : List (String × Body)} {error : Error}
      (decodes : (methods.mapM fun method => (method.name, ·) <$> Body.decode resolver method.bytes) = .ok bodies)
      (fails : rewriter.rewriteAll bodies = (.error error, after)) :
      LeavesScope rewriter resolver methods before error before
  | encoded {bodies rewritten : List (String × Body)} {reports : List MethodReport} {error : Error} {after : Scope}
      (decodes : (methods.mapM fun method => (method.name, ·) <$> Body.decode resolver method.bytes) = .ok bodies)
      (rewrites : rewriter.rewriteAll bodies = (.ok reports, rewritten))
      (grown : before.GrownBy (NamedByModified rewritten reports) after) :
      LeavesScope rewriter resolver methods before error after

/-- Encoding asks for tokens of what modified bodies name, and the others keep their bytes. -/
theorem asks_encodeAll {State : Type} (emitter : Emitter State) (methods : List RawMethod)
    (bodies : List (String × Body)) (reports : List MethodReport) :
    Emission.Asks emitter (NamedByModified bodies reports) (encodeAll emitter methods bodies reports) := by
  induction methods generalizing bodies reports with
  | nil => exact .pure []
  | cons method methods ih =>
      cases bodies with
      | nil => exact .pure []
      | cons entry bodies =>
          cases reports with
          | nil => exact .pure []
          | cons report reports =>
              rw [encodeAll_cons]
              have later : ∀ operand, NamedByModified bodies reports operand →
                  NamedByModified (entry :: bodies) (report :: reports) operand := by
                rintro operand ⟨other, otherMem, named⟩
                exact ⟨other, List.mem_cons_of_mem _ otherMem, named⟩
              have rest : Emission.Asks emitter (NamedByModified (entry :: bodies) (report :: reports))
                  (encodeAll emitter methods bodies reports) := by
                intro before
                exact (ih bodies reports before).mono later
              refine Emission.Asks.bind ?_ fun bytes => rest.bind fun others => .pure _
              split
              · rename_i modified
                intro before
                apply (Body.asks_encode entry.2 before).mono
                intro operand named
                exact ⟨(entry, report), List.mem_cons_self, modified, named⟩
              · exact .pure _

theorem leavesScope_of_rewriteBinary {resolver : Resolver} {methods : List RawMethod} {before final : Scope}
    (fails : rewriter.rewriteBinary resolver Scope.emitter methods before = (.error error, final)) :
    rewriter.LeavesScope resolver methods before error final := by
  rcases Emission.bind_eq_error_iff.mp fails with undecoded | ⟨bodies, _, decodes, fails⟩
  · rcases Emission.ofExcept_eq_error_iff.mp undecoded with ⟨malformed, rfl⟩
    exact .undecodable malformed
  rcases Emission.ofExcept_eq_ok_iff.mp decodes with ⟨decoded, rfl⟩
  rcases rewrites : rewriter.rewriteAll bodies with ⟨outcome, rewritten⟩
  rw [rewrites] at fails
  rcases Emission.bind_eq_error_iff.mp fails with defective | ⟨reports, _, made, fails⟩
  · rcases Emission.ofExcept_eq_error_iff.mp defective with ⟨rfl, rfl⟩
    exact .defective decoded rewrites
  rcases Emission.ofExcept_eq_ok_iff.mp made with ⟨rfl, rfl⟩
  have asked := asks_encodeAll Scope.emitter methods rewritten reports before
  have reached : (encodeAll Scope.emitter methods rewritten reports before).2 = final := by
    rcases Emission.bind_eq_error_iff.mp fails with failed | ⟨encoded, between, encodes, fails⟩
    · rw [failed]
    · rw [encodes]
      rcases Emission.bind_eq_error_iff.mp fails with refused | ⟨_, _, _, impossible⟩
      · exact (Emission.ofExcept_eq_error_iff.mp refused).2
      · cases impossible
  rw [reached] at asked
  exact .encoded decoded rewrites (Scope.grownBy_of_reaches asked)

/-- When rewriting ends in an error, the bodies that it has reached are as rewriting each of them by itself leaves
them, and all others are as before. A scope is as before if a method cannot be decoded or rewritten; else it has kept
what it knew and has gained no more than what the modified bodies name. A body that is refused by validation, or in
which nothing is rewritten, is as before in any case. -/
theorem rejected_leaves (rewriter : Rewriter) :
    (∀ bodies error after, rewriter.rewriteBodies bodies = (.error error, after) →
      rewriter.LeavesBodies bodies error after) ∧
    (∀ resolver methods before error after,
      rewriter.rewriteBinary resolver Scope.emitter methods before = (.error error, after) →
      rewriter.LeavesScope resolver methods before error after) ∧
    (∀ name body error, rewriter.context.settings.validateFirst = true → body.validate = .error error →
      (rewriter.rewriteBody name body).body = body) ∧
    ∀ name body report, (rewriter.rewriteBody name body).result = .ok report → report.rewrites = 0 →
      (rewriter.rewriteBody name body).body = body := by
  refine ⟨?_, ?_, ?_, ?_⟩
  · intro bodies error after fails
    exact leavesBodies_of_rewriteBodies fails
  · intro resolver methods before error after fails
    exact leavesScope_of_rewriteBinary fails
  · intro name body error validates invalid
    simp only [rewriteBody, validates, if_true, invalid]
  · intro name body report succeeds none
    exact rewriteBody_of_rewrites_eq_zero succeeds none

/-- A body that jumps past its end. -/
def strayBody : Body := .ofInstructions [.unplaced .brS (.target 1)]

/-- A method that the door does not have. -/
def slam : MethodRef := ⟨.named ⟨"", "Door", none, [], some "House"⟩, "slam", TypeRef.void, [], true, []⟩

/-- The scope in which both methods have tokens, the one that the door has and the one that it does not have. -/
def slamScope : Scope := doorScope.define ⟨0x0A000002⟩ (.method slam)

/-- A method that calls what the door does not have. -/
def slamMethod : RawMethod := ⟨"slam", ⟨0x06000002⟩, [0x1A, 0x6F, 0x02, 0x00, 0x00, 0x0A, 0x2A]⟩

/-- The rules that complete calls and report breakage, for the house of a door, one body after the other. -/
def doorRewriter : Rewriter := ⟨[.completeCalls, .reportBreakage], doorHost, .empty, .sequential⟩

/-- The body before a defective one stays rewritten. The token that was handed out before the report turned out to be
incompatible stays handed out. -/
theorem rejected_leaves_traces :
    ((doorRewriter.rewriteBodies [("turn", doorBody), ("stray", strayBody)]).1 =
        .error (.structural (.invalidTarget 0 .brS 1 1)) ∧
      (doorRewriter.rewriteBodies [("turn", doorBody), ("stray", strayBody)]).2 =
        [("turn", (doorRewriter.rewriteBody "turn" doorBody).body), ("stray", strayBody)] ∧
      (doorRewriter.rewriteBody "turn" doorBody).body ≠ doorBody) ∧
    (doorRewriter.rewriteBinary slamScope.resolver Scope.emitter [turnMethod, slamMethod] slamScope).1 =
        .error (.incompatible ⟨[⟨"turn", 1, 0, [], []⟩,
          ⟨"slam", 0, 0,
            [⟨"slam", 0, "broken-references", "no method matching System.Void Door::slam()"⟩], []⟩]⟩) ∧
      (doorRewriter.rewriteBinary slamScope.resolver Scope.emitter [turnMethod, slamMethod] slamScope).2 =
        (slamScope.intern (.method (swing 2))).2 ∧
      slamScope.symbols.find? ⟨0x0A000003⟩ = none ∧
      (slamScope.intern (.method (swing 2))).2.symbols.find? ⟨0x0A000003⟩ = some (.method (swing 2)) := by
  decide +kernel

theorem rejected_leaves_slamScope :
    (∃ error after, doorRewriter.rewriteBodies [("turn", doorBody), ("stray", strayBody)] = (.error error, after) ∧
      doorRewriter.LeavesBodies [("turn", doorBody), ("stray", strayBody)] error after) ∧
    (∃ error after, doorRewriter.rewriteBinary slamScope.resolver Scope.emitter [turnMethod, slamMethod] slamScope =
        (.error error, after) ∧ after.symbols.find? ⟨0x0A000001⟩ = some (.method (swing 1))) ∧
    (doorRewriter.rewriteBody "stray" strayBody).body = strayBody ∧
    (doorRewriter.rewriteBody "rest" (.ofInstructions [.unplaced .ret .none])).body =
      .ofInstructions [.unplaced .ret .none] := by
  rcases rejected_leaves doorRewriter with ⟨bodies, scopes, refused, unmodified⟩
  refine ⟨?_, ?_, ?_, ?_⟩
  · have fails : doorRewriter.rewriteBodies [("turn", doorBody), ("stray", strayBody)] =
        (.error (.structural (.invalidTarget 0 .brS 1 1)),
          [("turn", (doorRewriter.rewriteBody "turn" doorBody).body), ("stray", strayBody)]) := by
      decide +kernel
    exact ⟨_, _, fails, bodies _ _ _ fails⟩
  · have fails : doorRewriter.rewriteBinary slamScope.resolver Scope.emitter [turnMethod, slamMethod] slamScope =
        (.error (.incompatible ⟨[⟨"turn", 1, 0, [], []⟩,
          ⟨"slam", 0, 0, [⟨"slam", 0, "broken-references", "no method matching System.Void Door::slam()"⟩], []⟩]⟩),
          (slamScope.intern (.method (swing 2))).2) :=
      Prod.ext (by decide +kernel) (by decide +kernel)
    refine ⟨_, _, fails, ?_⟩
    have known : slamScope.symbols.find? ⟨0x0A000001⟩ = some (.method (swing 1)) := by decide +kernel
    cases scopes _ _ _ _ _ fails with
    | encoded _ _ grown => exact grown.symbols.keeps known
  · exact refused "stray" strayBody (.structural (.invalidTarget 0 .brS 1 1)) rfl (by decide +kernel)
  · exact unmodified "rest" _ ⟨"rest", 0, 0, [], []⟩ (by decide +kernel) rfl

end Rewriter

end CilRelink
