import CilRelink.Body.Format
import CilRelink.Rewrite.Finding

/-!
# Rewriting

A rewriter asks its rules in order about each instruction of a body, until one does not leave it alone. What they
decide is carried out from front to back, and the body is laid out afterwards if anything was rewritten. The rules are
asked once about each instruction that was there before, and never about one that was put in. Rules look at references
only, which no edit elsewhere changes, so it makes no difference that they are asked before the edits.

Methods of a binary are decoded, rewritten and encoded again. What no rule touched keeps its bytes.
-/
namespace CilRelink

open Text (Outline)

/-- A rewriter: its rules and what they go by. -/
structure Rewriter where
  rules : List Rule
  context : RuleContext

/-- A method as a binary stores it. -/
structure RawMethod where
  name : String
  token : Token
  bytes : List UInt8
deriving DecidableEq

/-- How far rewriting a body came: the report or an error, the body, and the log. -/
structure Rewriting where
  result : Except Error MethodReport
  body : Body
  log : List LogRecord

namespace Rewriter

/-- The names of the rules. -/
def ruleNames (rewriter : Rewriter) : List String := rewriter.rules.map Rule.name

/-- The verdict of the first rule that does not leave an instruction alone. -/
def judge (rewriter : Rewriter) (instruction : Instruction) : Option (Rule × Verdict) :=
  rewriter.rules.findSome? fun rule => (rule.judge rewriter.context instruction).map (rule, ·)

/-- The findings among instructions, the first of which is at `place`. A verdict moves the instructions after it. -/
def findingsFrom (rewriter : Rewriter) : (place : Nat) → List Instruction → List Finding
  | _, [] => []
  | place, instruction :: instructions =>
    match rewriter.judge instruction with
    | none => rewriter.findingsFrom (place + 1) instructions
    | some (rule, verdict) =>
      ⟨place, rule, verdict⟩ :: rewriter.findingsFrom (place + verdict.span) instructions

/-- Carries out findings up to the first that fails: those carried out, the error if there is one, and the body. -/
def carryOut : List Finding → Body → List Finding × Option Error × Body
  | [], body => ([], none, body)
  | finding :: findings, body =>
    match body.carryOut finding.place finding.verdict with
    | .error error => ([], some error, body)
    | .ok changed =>
      let (done, failure, final) := carryOut findings changed
      (finding :: done, failure, final)

/-- Lays out the body of the method `name` in which findings were carried out, if they changed it. -/
def finish (name : String) (done : List Finding) (body : Body) : Rewriting :=
  let log := done.map (Finding.record name)
  if !(MethodReport.ofFindings name done 0).isModified then ⟨.ok (.ofFindings name done 0), body, log⟩
  else
    match body.layout with
    | (.error error, placed) => ⟨.error error, placed, log⟩
    | (.ok stats, placed) =>
      let record : LogRecord :=
        ⟨.trace, s!"{name}: relaid out to {stats.codeSize} bytes in {stats.passes} passes, " ++
          s!"{stats.widened} branches widened"⟩
      ⟨.ok (.ofFindings name done stats.widened), placed, log ++ [record]⟩

/-- Rewrites the body of the method `name`. -/
def rewriteBody (rewriter : Rewriter) (name : String) (body : Body) : Rewriting :=
  match if rewriter.context.settings.validateFirst then body.validate else .ok () with
  | .error error => ⟨.error error, body, []⟩
  | .ok () =>
    match carryOut (rewriter.findingsFrom 0 body.instructions) body with
    | (done, some error, changed) => ⟨.error error, changed, done.map (Finding.record name)⟩
    | (done, none, changed) => finish name done changed

/-- Rewrites bodies with their names, up to the first that fails. -/
def rewriteAll (rewriter : Rewriter) :
    List (String × Body) → Except Error (List MethodReport) × List (String × Body)
  | [] => (.ok [], [])
  | (name, body) :: bodies =>
    let first := rewriter.rewriteBody name body
    match first.result with
    | .error error => (.error error, (name, first.body) :: bodies)
    | .ok report =>
      let (reports, rest) := rewriter.rewriteAll bodies
      ((report :: ·) <$> reports, (name, first.body) :: rest)

/-- The report, unless broken references are to be rejected and there are some. -/
def check (rewriter : Rewriter) (report : Report) : Except Error Report :=
  if rewriter.context.settings.rejectIncompatible && !report.isCompatible then .error (.incompatible report)
  else .ok report

/-- Rewrites bodies with their names and checks the report. -/
def rewriteBodies (rewriter : Rewriter) (bodies : List (String × Body)) :
    Except Error Report × List (String × Body) :=
  let (reports, rewritten) := rewriter.rewriteAll bodies
  (reports.bind fun reports => rewriter.check ⟨reports⟩, rewritten)

/-- Encodes the bodies that were rewritten; the other methods keep their bytes. -/
def encodeAll (emitter : Emitter State) :
    List RawMethod → List (String × Body) → List MethodReport → Emission State (List RawMethod)
  | method :: methods, (_, body) :: bodies, report :: reports => do
    let bytes ← if report.isModified then body.encode emitter else pure method.bytes
    let rest ← encodeAll emitter methods bodies reports
    return { method with bytes } :: rest
  | _, _, _ => return []

/-- Rewrites the methods of a binary. -/
def rewriteBinary (rewriter : Rewriter) (resolver : Resolver) (emitter : Emitter State)
    (methods : List RawMethod) : Emission State (List RawMethod × Report) := do
  let bodies ← Emission.ofExcept (methods.mapM fun method => (method.name, ·) <$> Body.decode resolver method.bytes)
  let (result, rewritten) := rewriter.rewriteAll bodies
  let reports ← Emission.ofExcept result
  let encoded ← encodeAll emitter methods rewritten reports
  let report ← Emission.ofExcept (rewriter.check ⟨reports⟩)
  return (encoded, report)

/-- The rewriter in outlines of values. -/
def outline (rewriter : Rewriter) : Outline :=
  .fields "Rewriter"
    [("rules", .listOf .string rewriter.ruleNames), ("host", .nat rewriter.context.host.size),
      ("facades", .nat rewriter.context.facades.size), ("config", rewriter.context.settings.outline)]

end Rewriter

end CilRelink
