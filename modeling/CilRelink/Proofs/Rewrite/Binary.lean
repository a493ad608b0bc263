import CilRelink.Proofs.Body.Emission
import CilRelink.Proofs.Body.Stability
import CilRelink.Proofs.Rewrite.Expansion

/-!
# Rewritten binaries

The methods of a binary are decoded, rewritten and encoded one after the other, and the scope grows on the way. What
was encoded early is decoded with the scope as it is in the end. Nothing that the scope has handed out is taken back,
so each method is decoded to what it was rewritten to, whatever came after it.
-/

namespace CilRelink

theorem Clause.IsCanonical.mapPositions {clause : Clause} (canonical : clause.IsCanonical) (move moveEnd : Nat → Nat) :
    (clause.mapPositions move moveEnd).IsCanonical := by
  refine ⟨canonical.catchType, ?_⟩
  rw [Clause.mapPositions, Option.isSome_map]
  exact canonical.filterStart

theorem Code.isPlaced_of_layoutFrom {passes widened : Nat} {instructions result : List Instruction}
    {stats : LayoutStats} (finished : layoutFrom passes widened instructions = (.ok stats, result)) :
    IsPlaced result := by
  fun_induction layoutFrom passes widened instructions with
  | case1 passes widened instructions error failed => cases finished
  | case2 passes widened instructions places found error changed pass => cases finished
  | case3 passes widened instructions places found changed pass =>
      cases finished
      rw [(widening?_none_of_widenFrom_zero pass).1]
      exact isPlaced_placeFrom instructions
  | case4 passes widened instructions places found more changed pass ih => exact ih finished

namespace Body

theorem canonical_of_decode {resolver : Resolver} {bytes : List UInt8} {body : Body}
    (decoded : decode resolver bytes = .ok body) : ∀ clause ∈ body.clauses, clause.IsCanonical := by
  rcases decode_eq_ok decoded with ⟨code, clauses, _, _, _, resolved⟩
  intro clause clauseMem
  exact (Section.canonical_of_resolveClauses resolved clause clauseMem).1

theorem placed_of_layout {body placed : Body} {stats : Code.LayoutStats} (laidOut : body.layout = (.ok stats, placed)) :
    Code.IsPlaced placed.instructions ∧ placed.clauses = body.clauses := by
  unfold layout at laidOut
  rcases finished : Code.layout body.instructions with ⟨outcome, instructions⟩
  rw [finished] at laidOut
  cases laidOut
  exact ⟨Code.isPlaced_of_layoutFrom finished, rfl⟩

end Body

namespace Rewriter

variable {rewriter : Rewriter} {name : String} {body : Body} {report : MethodReport}

theorem layout_of_finish {done : List Finding} (finished : (finish name done body).result = .ok report)
    (modified : report.isModified = true) : ∃ stats, body.layout = (.ok stats, (finish name done body).body) := by
  unfold finish at finished ⊢
  split
  · rename_i untouched
    rw [if_pos untouched] at finished
    cases finished
    rw [modified] at untouched
    cases untouched
  · rename_i touched
    rw [if_neg touched] at finished
    rcases laid : body.layout with ⟨outcome, placed⟩
    simp only [laid] at finished ⊢
    cases outcome with
    | error error => cases finished
    | ok stats => exact ⟨stats, rfl⟩

theorem clauses_expand (rewriter : Rewriter) (body : Body) :
    (rewriter.expand body).clauses =
      body.clauses.map (·.mapPositions (rewriter.start body.instructions) (rewriter.start body.instructions)) := rfl

/-- A rewritten body is laid out, and its clauses are those of the body before, at other places. -/
theorem placed_of_rewriteBody (succeeds : (rewriter.rewriteBody name body).result = .ok report)
    (modified : report.isModified = true) :
    Code.IsPlaced (rewriter.rewriteBody name body).body.instructions ∧
      ∃ move, (rewriter.rewriteBody name body).body.clauses = body.clauses.map (·.mapPositions move move) := by
  have finished := rewriteBody_eq_finish succeeds
  rw [finished] at succeeds ⊢
  rcases layout_of_finish succeeds modified with ⟨stats, laidOut⟩
  rcases Body.placed_of_layout laidOut with ⟨isPlaced, clauses⟩
  exact ⟨isPlaced, _, clauses.trans (clauses_expand rewriter body)⟩

/-- What a method of a binary is turned into: `before` is the scope with which it is decoded, and `after` the scope
with which it is decoded again. -/
structure Rewrites (rewriter : Rewriter) (before after : Scope) (method result : RawMethod) (decoded : Body)
    (report : MethodReport) : Prop where
  name : result.name = method.name
  token : result.token = method.token
  decodes : Body.decode before.resolver method.bytes = .ok decoded
  reports : (rewriter.rewriteBody method.name decoded).result = .ok report
  untouched : report.rewrites = 0 → result.bytes = method.bytes
  touched : report.rewrites ≠ 0 → Body.decode after.resolver result.bytes = .ok
    { (rewriter.rewriteBody method.name decoded).body with
      maxStack :=
        if (rewriter.rewriteBody method.name decoded).body.fitsTiny
          (Code.size (rewriter.rewriteBody method.name decoded).body.instructions)
        then Body.defaultMaxStack else (rewriter.rewriteBody method.name decoded).body.maxStack }

theorem rewriteAll_eq_ok {bodies rewritten : List (String × Body)} {reports : List MethodReport}
    (rewrites : rewriter.rewriteAll bodies = (.ok reports, rewritten)) :
    rewritten = bodies.map (fun entry => (entry.1, (rewriter.rewriteBody entry.1 entry.2).body)) ∧
      List.Forall₂ (fun entry report => (rewriter.rewriteBody entry.1 entry.2).result = .ok report) bodies reports := by
  induction bodies generalizing rewritten reports with
  | nil =>
      cases rewrites
      exact ⟨rfl, .nil⟩
  | cons entry bodies ih =>
      rcases entry with ⟨name, body⟩
      rw [rewriteAll] at rewrites
      cases first : (rewriter.rewriteBody name body).result with
      | error error =>
          simp only [first] at rewrites
          cases rewrites
      | ok report =>
          rcases rest : rewriter.rewriteAll bodies with ⟨outcome, others⟩
          simp only [first, rest] at rewrites
          rcases Prod.mk.inj rewrites with ⟨made, rfl⟩
          rcases Fallible.map_eq_ok_iff.mp made with ⟨reports, rfl, rfl⟩
          rcases ih rest with ⟨rfl, reported⟩
          exact ⟨rfl, .cons first reported⟩

/-- One method: its bytes mean what it was rewritten to, for as long as no token is given another meaning. -/
theorem rewrites_of_encode {scope later before after : Scope} {method : RawMethod} {bytes : List UInt8}
    (decoded : Body.decode scope.resolver method.bytes = .ok body)
    (succeeds : (rewriter.rewriteBody method.name body).result = .ok report)
    (written : (if report.isModified then (rewriter.rewriteBody method.name body).body.encode Scope.emitter
      else pure method.bytes) before = (.ok bytes, after))
    (settles : later.SettledIn after) :
    later.SettledIn before ∧ rewriter.Rewrites scope later method { method with bytes } body report := by
  cases modified : report.isModified with
  | true =>
      rw [modified, if_pos rfl] at written
      rcases placed_of_rewriteBody succeeds modified with ⟨placed, move, clauses⟩
      have canonical : ∀ clause ∈ (rewriter.rewriteBody method.name body).body.clauses, clause.IsCanonical := by
        rw [clauses, List.forall_mem_map]
        exact fun clause clauseMem => (Body.canonical_of_decode decoded clause clauseMem).mapPositions move move
      have defined : ∀ clause ∈ (rewriter.rewriteBody method.name body).body.clauses, clause.flags.IsDefined := by
        rw [clauses, List.forall_mem_map]
        exact Body.isDefined_of_decode decoded
      rcases Body.decode_of_encode later.resolver_undoes_emitter placed canonical written settles with
        ⟨settledBefore, again⟩
      rw [Body.readBack_of_isDefined defined] at again
      refine ⟨settledBefore, rfl, rfl, decoded, succeeds, ?_, fun _ => again⟩
      intro untouched
      simp [MethodReport.isModified, untouched] at modified
  | false =>
      rw [modified, if_neg (by decide)] at written
      rcases Emission.pure_eq_ok_iff.mp written with ⟨rfl, rfl⟩
      refine ⟨settles, rfl, rfl, decoded, succeeds, fun _ => rfl, ?_⟩
      intro touched
      simp [MethodReport.isModified, touched] at modified

theorem encodeAll_cons {State : Type} (emitter : Emitter State) (method : RawMethod) (methods : List RawMethod)
    (entry : String × Body) (bodies : List (String × Body)) (report : MethodReport) (reports : List MethodReport) :
    encodeAll emitter (method :: methods) (entry :: bodies) (report :: reports) =
      (if report.isModified then entry.2.encode emitter else pure method.bytes) >>= fun bytes =>
        encodeAll emitter methods bodies reports >>= fun rest => pure ({ method with bytes } :: rest) := by
  rw [encodeAll]
  cases report.isModified <;> rfl

theorem rewrites_of_encodeAll {scope later : Scope} {methods out : List RawMethod} {bodies : List (String × Body)}
    {reports : List MethodReport} {before after : Scope}
    (decoded : List.Forall₂ (fun method entry => method.name = entry.1 ∧
      Body.decode scope.resolver method.bytes = .ok entry.2) methods bodies)
    (reported : List.Forall₂ (fun entry report => (rewriter.rewriteBody entry.1 entry.2).result = .ok report) bodies
      reports)
    (encoded : encodeAll Scope.emitter methods
      (bodies.map fun entry => (entry.1, (rewriter.rewriteBody entry.1 entry.2).body)) reports before = (.ok out, after))
    (settles : later.SettledIn after) :
    later.SettledIn before ∧ out.length = methods.length ∧
      ∀ (position : Nat) (method : RawMethod), methods[position]? = some method →
        ∃ result body report, out[position]? = some result ∧ reports[position]? = some report ∧
          rewriter.Rewrites scope later method result body report := by
  induction decoded generalizing reports before out with
  | nil =>
      cases reported
      rcases Emission.pure_eq_ok_iff.mp encoded with ⟨rfl, rfl⟩
      exact ⟨settles, rfl, by simp⟩
  | cons first decoded ih =>
      rename_i method entry methods bodies
      rcases reported with _ | ⟨succeeds, reported⟩
      rename_i report reports
      rw [List.map_cons, encodeAll_cons] at encoded
      rcases Emission.bind_eq_ok_iff.mp encoded with ⟨bytes, between, written, more⟩
      rcases Emission.bind_eq_ok_iff.mp more with ⟨others, last, rest, made⟩
      rcases Emission.pure_eq_ok_iff.mp made with ⟨rfl, rfl⟩
      rcases ih reported rest with ⟨settledBetween, count, each⟩
      rw [← first.1] at succeeds written
      have outcome := rewrites_of_encode first.2 succeeds written settledBetween
      refine ⟨outcome.1, by rw [List.length_cons, List.length_cons, count], ?_⟩
      intro position other found
      cases position with
      | zero =>
          cases found
          exact ⟨_, _, _, rfl, rfl, outcome.2⟩
      | succ position => exact each position other found

theorem preserves_encodeAll {State : Type} {emitter : Emitter State} {holds : State → Prop}
    (preserves : emitter.Preserves holds) (methods : List RawMethod) (bodies : List (String × Body))
    (reports : List MethodReport) : Emission.Preserves holds (encodeAll emitter methods bodies reports) := by
  induction methods generalizing bodies reports with
  | nil => exact .pure []
  | cons method methods ih =>
      cases bodies with
      | nil => exact .pure []
      | cons entry bodies =>
          cases reports with
          | nil => exact .pure []
          | cons report reports =>
              rw [encodeAll_cons]
              refine Emission.Preserves.bind ?_ fun bytes => (ih bodies reports).bind fun rest => .pure _
              split
              · exact Body.preserves_encode preserves entry.2
              · exact .pure _

theorem check_eq_ok {report checked : Report} (passed : rewriter.check report = .ok checked) : checked = report := by
  unfold check at passed
  split at passed
  · cases passed
  · cases passed
    rfl

/-- Rewriting a binary by way of a scope. Methods stay in order with their names and tokens, and what no rule touched
keeps its bytes. What was rewritten is decoded, with the scope as it is in the end, to what it was rewritten to. -/
theorem rewriteBinary_rewrites (rewriter : Rewriter) (scope : Scope) (orderly : scope.Orderly)
    (methods : List RawMethod) {out : List RawMethod} {report : Report} {after : Scope}
    (finished : rewriter.rewriteBinary scope.resolver Scope.emitter methods scope = (.ok (out, report), after))
    (room : ∀ table, after.rows table < Token.rowLimit) :
    out.length = methods.length ∧ report.methods.length = methods.length ∧
      ∀ (position : Nat) (method : RawMethod), methods[position]? = some method →
        ∃ result body methodReport, out[position]? = some result ∧
          report.methods[position]? = some methodReport ∧
          rewriter.Rewrites scope after method result body methodReport := by
  rcases Emission.bind_eq_ok_iff.mp finished with ⟨bodies, _, decodes, finished⟩
  rcases Emission.ofExcept_eq_ok_iff.mp decodes with ⟨decoded, rfl⟩
  rcases rewriteAll : rewriter.rewriteAll bodies with ⟨outcome, rewritten⟩
  rw [rewriteAll] at finished
  rcases Emission.bind_eq_ok_iff.mp finished with ⟨reports, _, made, finished⟩
  rcases Emission.ofExcept_eq_ok_iff.mp made with ⟨rfl, rfl⟩
  rcases Emission.bind_eq_ok_iff.mp finished with ⟨encoded, final, encodes, finished⟩
  rcases Emission.bind_eq_ok_iff.mp finished with ⟨checked, _, checks, finished⟩
  rcases Emission.ofExcept_eq_ok_iff.mp checks with ⟨passed, rfl⟩
  rcases Emission.pure_eq_ok_iff.mp finished with ⟨same, rfl⟩
  cases same
  rw [check_eq_ok passed]
  have isDecoded : List.Forall₂ (fun method entry => method.name = entry.1 ∧
      Body.decode scope.resolver method.bytes = .ok entry.2) methods bodies := by
    refine (Fallible.mapM_eq_ok_iff.mp decoded).imp ?_
    intro method entry found
    rcases Fallible.map_eq_ok_iff.mp found with ⟨body, decodes, rfl⟩
    exact ⟨rfl, decodes⟩
  have settled : final.SettledIn final := by
    have keeps := preserves_encodeAll Scope.preserves_orderly methods rewritten reports
    exact (keeps scope out final encodes (fun _ => orderly) room).coherent.settled
  rcases rewriteAll_eq_ok rewriteAll with ⟨rfl, reported⟩
  rcases rewrites_of_encodeAll isDecoded reported encodes settled with ⟨_, count, each⟩
  have reportCount := reported.length_eq
  have bodyCount := isDecoded.length_eq
  exact ⟨count, reportCount.symm.trans bodyCount.symm, each⟩

/-- The method of a door with parameters of the given number. -/
def swing (count : Nat) : MethodRef :=
  ⟨.named ⟨"", "Door", none, [], some "House"⟩, "swing", TypeRef.void,
    List.replicate count HostType.int32.reference, true, []⟩

/-- The scope in which the method with one parameter has a token. -/
def doorScope : Scope := Scope.empty.define ⟨0x0A000001⟩ (.method (swing 1))

/-- A method that calls the door's method with one parameter. -/
def turnMethod : RawMethod :=
  ⟨"turn", ⟨0x06000001⟩, [0x26, 0x2B, 0x00, 0x6F, 0x01, 0x00, 0x00, 0x0A, 0x2B, 0xFE]⟩

/-- The same method, with a value for the second parameter and a header that has room for a deeper stack. -/
def turnedMethod : RawMethod :=
  ⟨"turn", ⟨0x06000001⟩,
    [0x03, 0x30, 0x09, 0x00, 0x0A, 0x00, 0x00, 0x00, 0x00, 0x00, 0x00, 0x00,
      0x2B, 0x00, 0x1D, 0x6F, 0x02, 0x00, 0x00, 0x0A, 0x2B, 0xFE]⟩

/-- A method that does nothing. -/
def restMethod : RawMethod := ⟨"rest", ⟨0x06000002⟩, [0x06, 0x2A]⟩

theorem rewriteBinary_rewrites_turnMethod :
    let rewriter : Rewriter := ⟨[.completeCalls, .reportBreakage], doorHost, .empty, .strict⟩
    let after := (doorScope.intern (.method (swing 2))).2
    doorScope.Orderly ∧
      rewriter.rewriteBinary doorScope.resolver Scope.emitter [turnMethod, restMethod] doorScope =
        (.ok ([turnedMethod, restMethod], ⟨[⟨"turn", 1, 0, [], []⟩, ⟨"rest", 0, 0, [], []⟩]⟩), after) ∧
      (∀ table, after.rows table < Token.rowLimit) ∧
      ∃ body, rewriter.Rewrites doorScope after turnMethod turnedMethod body ⟨"turn", 1, 0, [], []⟩ := by
  intro rewriter after
  have orderly : doorScope.Orderly := .define _ .empty rfl
  have finished : rewriter.rewriteBinary doorScope.resolver Scope.emitter [turnMethod, restMethod] doorScope =
      (.ok ([turnedMethod, restMethod], ⟨[⟨"turn", 1, 0, [], []⟩, ⟨"rest", 0, 0, [], []⟩]⟩), after) :=
    Prod.ext (by decide +kernel) (by decide +kernel)
  have room : ∀ table, after.rows table < Token.rowLimit := by
    intro table
    cases table <;> decide +kernel
  rcases rewriteBinary_rewrites rewriter doorScope orderly [turnMethod, restMethod] finished room with ⟨_, _, each⟩
  rcases each 0 turnMethod rfl with ⟨result, body, report, isResult, isReport, rewrites⟩
  cases isResult
  cases isReport
  exact ⟨orderly, finished, room, body, rewrites⟩

end Rewriter

end CilRelink
