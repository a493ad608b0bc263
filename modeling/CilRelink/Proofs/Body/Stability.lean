import CilRelink.Body.Edit
import CilRelink.Proofs.Body.RoundTrip
import CilRelink.Proofs.Code.Stability
import CilRelink.Proofs.Scope.History

/-!
# Decoded bodies are stable

Whatever form the bytes of a body had, the body that is decoded from them has a form that is kept: layout leaves it
alone, and encoding writes it so that it is decoded again.
-/

namespace CilRelink

namespace Section

theorem fitWidths_of_readWidths {widths numbers : List Nat} {bytes rest : List UInt8}
    (found : readWidths widths bytes = some (numbers, rest)) : FitWidths widths numbers := by
  induction widths generalizing bytes numbers with
  | nil =>
      cases found
      exact .nil
  | cons width widths ih =>
      rw [readWidths] at found
      split at found
      · cases found
      · rename_i number tail first
        rcases Option.map_eq_some_iff.mp found with ⟨⟨others, last⟩, more, same⟩
        rcases Prod.mk.inj same with ⟨rfl, rfl⟩
        exact .cons (Bytes.eq_encode_of_read first).1 (ih more)

theorem isDefined_of_ofParts? {parts : List Nat} {clause : ByteClause}
    (made : ByteClause.ofParts? parts = some clause) : clause.flags.IsDefined := by
  unfold ByteClause.ofParts? at made
  split at made
  · cases made
    exact ClauseFlags.isDefined_truncated _
  · cases made

theorem isDefined_of_readClauses {widths : List Nat} {count : Nat} {bytes : List UInt8} {clauses : List ByteClause}
    (found : readClauses widths count bytes = some clauses) : ∀ clause ∈ clauses, clause.flags.IsDefined := by
  induction count generalizing bytes clauses with
  | zero =>
      cases found
      simp
  | succ count ih =>
      rw [readClauses] at found
      split at found
      · cases found
      · split at found
        · rename_i clause clauses first rest
          cases found
          exact List.forall_mem_cons.mpr ⟨isDefined_of_ofParts? first, ih rest⟩
        · cases found

theorem isDefined_of_clauses? {flags size : Nat} {bytes : List UInt8} {clauses : List ByteClause}
    (found : clauses? flags size bytes = some clauses) : ∀ clause ∈ clauses, clause.flags.IsDefined := by
  unfold clauses? at found
  split at found
  · exact isDefined_of_readClauses found
  · exact isDefined_of_readClauses found

/-- Clauses that were read have no flags without a meaning. -/
theorem isDefined_of_readChain {bytes : List UInt8} {clauses : List ByteClause} (read : readChain bytes = .ok clauses) :
    ∀ clause ∈ clauses, clause.flags.IsDefined := by
  fun_induction readChain bytes generalizing clauses with
  | case1 | case3 | case4 | case5 => cases read
  | case2 =>
      cases read
      simp
  | case6 head tail flags holds size sized fits first found more =>
      rename_i ih
      rcases Fallible.map_eq_ok_iff.mp read with ⟨others, rest, rfl⟩
      exact List.forall_mem_append.mpr ⟨isDefined_of_clauses? found, ih rest⟩
  | case7 head tail flags holds size sized fits first found =>
      cases read
      exact isDefined_of_clauses? found

/-- A resolved clause has what its flags call for, and its type has a token. -/
theorem isCanonical_of_resolveClause {resolver : Resolver} {code : List Instruction} {codeSize : Nat}
    {bytes : ByteClause} {clause : Clause} (resolved : resolveClause resolver code codeSize bytes = .ok clause) :
    clause.IsCanonical ∧ ∀ type ∈ clause.catchType, ∃ token, resolver.type token = .ok type := by
  rcases resolveClause_eq_ok resolved with ⟨flags, catches, filters, _⟩
  rw [← flags] at catches filters
  have typed : clause.catchType.isSome = clause.flags.isTyped ∧
      ∀ type ∈ clause.catchType, ∃ token, resolver.type token = .ok type := by
    split at catches
    · rename_i isTyped
      rcases Fallible.map_eq_ok_iff.mp catches with ⟨type, known, same⟩
      rw [← same, isTyped]
      refine ⟨rfl, ?_⟩
      rintro _ ⟨⟩
      exact ⟨_, known⟩
    · rename_i untyped
      rw [Bool.not_eq_true] at untyped
      rw [← Except.ok.inj catches, untyped]
      exact ⟨rfl, by simp⟩
  have filtered : clause.filterStart.isSome = clause.flags.isFilter := by
    split at filters
    · rename_i isFilter
      rcases Fallible.map_eq_ok_iff.mp filters with ⟨start, _, same⟩
      rw [← same, isFilter]
      rfl
    · rename_i unfiltered
      rw [Bool.not_eq_true] at unfiltered
      rw [← Except.ok.inj filters, unfiltered]
      rfl
  exact ⟨⟨typed.1, filtered⟩, typed.2⟩

theorem canonical_of_resolveClauses {resolver : Resolver} {code : List Instruction} {codeSize : Nat}
    {byteClauses : List ByteClause} {clauses : List Clause}
    (resolved : byteClauses.mapM (resolveClause resolver code codeSize) = .ok clauses) :
    ∀ clause ∈ clauses, clause.IsCanonical ∧ ∀ type ∈ clause.catchType, ∃ token, resolver.type token = .ok type := by
  have each := Fallible.mapM_eq_ok_iff.mp resolved
  clear resolved
  induction each with
  | nil => simp
  | cons first rest ih => exact List.forall_mem_cons.mpr ⟨isCanonical_of_resolveClause first, ih⟩

theorem isDefined_of_resolveClauses {resolver : Resolver} {code : List Instruction} {codeSize : Nat}
    {byteClauses : List ByteClause} {clauses : List Clause} (defined : ∀ bytes ∈ byteClauses, bytes.flags.IsDefined)
    (resolved : byteClauses.mapM (resolveClause resolver code codeSize) = .ok clauses) :
    ∀ clause ∈ clauses, clause.flags.IsDefined := by
  have each := Fallible.mapM_eq_ok_iff.mp resolved
  clear resolved
  induction each with
  | nil => simp
  | cons first rest ih =>
      rw [List.forall_mem_cons] at defined ⊢
      rw [(resolveClause_eq_ok first).1]
      exact ⟨defined.1, ih defined.2⟩

/-! ## Writing clauses -/

variable {State : Type} {emitter : Emitter State} {steady : State → Prop}

theorem exists_toBytesOf {clause : Clause} (canonical : clause.IsCanonical)
    (serves : ∀ type ∈ clause.catchType, emitter.Serves steady (.type type)) (offsets : Array Nat) {before : State}
    (isSteady : steady before) :
    ∃ bytes after, toBytesOf emitter offsets clause before = (.ok bytes, after) ∧ steady after := by
  have extra : ∃ extra after, extraOf emitter offsets clause before = (.ok extra, after) ∧ steady after := by
    unfold extraOf
    split
    · exact ⟨_, before, rfl, isSteady⟩
    · split
      · rename_i isTyped
        rcases Option.isSome_iff_exists.mp (canonical.catchType.trans isTyped) with ⟨type, catchType⟩
        rcases serves type catchType _ rfl before isSteady with ⟨token, after, emitted, steadyAfter⟩
        refine ⟨token.value.toNat, after, ?_, steadyAfter⟩
        rw [catchType]
        exact Emission.map_eq_ok_iff.mpr ⟨token, emitted, rfl⟩
      · exact ⟨_, before, rfl, isSteady⟩
  rcases extra with ⟨extra, after, made, steadyAfter⟩
  exact ⟨_, after, Emission.bind_eq_ok_iff.mpr ⟨extra, after, made, rfl⟩, steadyAfter⟩

theorem exists_mapM_toBytesOf {clauses : List Clause} (canonical : ∀ clause ∈ clauses, clause.IsCanonical)
    (serves : ∀ clause ∈ clauses, ∀ type ∈ clause.catchType, emitter.Serves steady (.type type))
    (offsets : Array Nat) {before : State} (isSteady : steady before) :
    ∃ bytes after, clauses.mapM (toBytesOf emitter offsets) before = (.ok bytes, after) ∧
      bytes.length = clauses.length ∧ steady after := by
  induction clauses generalizing before with
  | nil => exact ⟨[], before, rfl, rfl, isSteady⟩
  | cons clause clauses ih =>
      rw [List.forall_mem_cons] at canonical serves
      rcases exists_toBytesOf canonical.1 serves.1 offsets isSteady with ⟨bytes, between, first, steadyBetween⟩
      rcases ih canonical.2 serves.2 steadyBetween with ⟨others, after, rest, count, steadyAfter⟩
      refine ⟨bytes :: others, after, ?_, by rw [List.length_cons, List.length_cons, count], steadyAfter⟩
      rw [List.mapM_cons]
      refine Emission.bind_eq_ok_iff.mpr ⟨_, between, first, ?_⟩
      exact Emission.bind_eq_ok_iff.mpr ⟨_, after, rest, rfl⟩

/-- The most clauses that a section has room for, in fat form. -/
def clauseLimit : Nat := 699050

theorem exists_sectionBytes {clauses : List ByteClause} (few : clauses.length ≤ clauseLimit) :
    ∃ bytes, sectionBytes clauses = .ok bytes := by
  have fits : 4 + clauses.length * fatClauseSize < 2 ^ 24 := by
    unfold clauseLimit at few
    unfold fatClauseSize
    omega
  unfold sectionBytes
  simp only
  split
  · exact ⟨_, rfl⟩
  · exact ⟨_, rfl⟩

end Section

namespace Body

/-! ## What was decoded -/

theorem decodeTiny_eq_ok {resolver : Resolver} {size : Nat} {bytes : List UInt8} {body : Body}
    (small : size < 2 ^ 32) (decoded : decodeTiny resolver size bytes = .ok body) :
    ∃ code : List UInt8, code.length < 2 ^ 32 ∧ Code.decode resolver code = .ok body.instructions ∧
      body.clauses = [] := by
  unfold decodeTiny at decoded
  split at decoded
  · cases decoded
  · rcases Fallible.map_eq_ok_iff.mp decoded with ⟨instructions, found, rfl⟩
    refine ⟨bytes.take size, ?_, found, rfl⟩
    rw [List.length_take]
    omega

theorem decodeFat_eq_ok {resolver : Resolver} {bytes : List UInt8} {body : Body}
    (decoded : decodeFat resolver bytes = .ok body) :
    ∃ (code : List UInt8) (clauses : List ByteClause), code.length < 2 ^ 32 ∧
      Code.decode resolver code = .ok body.instructions ∧ (∀ clause ∈ clauses, clause.flags.IsDefined) ∧
      clauses.mapM (Section.resolveClause resolver body.instructions code.length) = .ok body.clauses := by
  unfold decodeFat at decoded
  split at decoded
  · rename_i head maxStack codeSize signature rest header
    rcases Section.fitWidths_of_readWidths header with _ | ⟨_, _ | ⟨_, _ | ⟨small, _⟩⟩⟩
    simp only at decoded
    split at decoded
    · cases decoded
    · split at decoded
      · cases decoded
      · rename_i inside
        rcases Fallible.bind_eq_ok_iff.mp decoded with ⟨instructions, found, more⟩
        have length : ((bytes.drop (head / 2 ^ 12 * 4)).take codeSize).length = codeSize := by
          rw [List.length_take, List.length_drop]
          omega
        split at more
        · rcases Fallible.bind_eq_ok_iff.mp more with ⟨clauses, resolved, made⟩
          cases made
          rcases Fallible.bind_eq_ok_iff.mp resolved with ⟨byteClauses, read, each⟩
          have defined := Section.isDefined_of_readChain read
          exact ⟨_, byteClauses, by rw [length]; exact small, found, defined, by rw [length]; exact each⟩
        · cases more
          exact ⟨_, [], by rw [length]; exact small, found, by simp, rfl⟩
  · cases decoded

/-- The code of a decoded body and its clauses in bytes. -/
theorem decode_eq_ok {resolver : Resolver} {bytes : List UInt8} {body : Body}
    (decoded : decode resolver bytes = .ok body) :
    ∃ (code : List UInt8) (clauses : List ByteClause), code.length < 2 ^ 32 ∧
      Code.decode resolver code = .ok body.instructions ∧ (∀ clause ∈ clauses, clause.flags.IsDefined) ∧
      clauses.mapM (Section.resolveClause resolver body.instructions code.length) = .ok body.clauses := by
  cases bytes with
  | nil => cases decoded
  | cons first rest =>
      rw [decode] at decoded
      by_cases tiny : first.toNat % 4 = 2
      · rw [if_pos tiny] at decoded
        have small := first.toNat_lt
        rcases decodeTiny_eq_ok (by omega) decoded with ⟨code, short, found, none⟩
        exact ⟨code, [], short, found, by simp, by rw [none]; rfl⟩
      · rw [if_neg tiny] at decoded
        by_cases fat : first.toNat % 4 = 3
        · rw [if_pos fat] at decoded
          exact decodeFat_eq_ok decoded
        · rw [if_neg fat] at decoded
          cases decoded

/-- Clauses of decoded bodies have no flags without a meaning. -/
theorem isDefined_of_decode {resolver : Resolver} {bytes : List UInt8} {body : Body}
    (decoded : decode resolver bytes = .ok body) : ∀ clause ∈ body.clauses, clause.flags.IsDefined := by
  rcases decode_eq_ok decoded with ⟨_, _, _, _, defined, resolved⟩
  exact Section.isDefined_of_resolveClauses defined resolved

/-! ## Encoding it again -/

theorem exists_encodeClauses {State : Type} {emitter : Emitter State} {steady : State → Prop} {body : Body}
    (small : Code.size body.instructions < 2 ^ 32) (canonical : ∀ clause ∈ body.clauses, clause.IsCanonical)
    (serves : ∀ clause ∈ body.clauses, ∀ type ∈ clause.catchType, emitter.Serves steady (.type type))
    (few : body.clauses.length ≤ Section.clauseLimit) {before : State} (isSteady : steady before) :
    ∃ bytes after, body.encodeClauses emitter before = (.ok bytes, after) ∧ steady after := by
  have laidOut : Code.offsets body.instructions = .ok _ := Code.offsets_eq_ok_iff.mpr ⟨small, rfl⟩
  rcases Section.exists_mapM_toBytesOf canonical serves (Code.offsetsFrom 0 body.instructions).toArray isSteady with
    ⟨byteClauses, after, parts, count, steadyAfter⟩
  rcases Section.exists_sectionBytes (count ▸ few) with ⟨bytes, written⟩
  refine ⟨bytes, after, ?_, steadyAfter⟩
  refine Emission.bind_eq_ok_iff.mpr ⟨_, before, Emission.ofExcept_eq_ok_iff.mpr ⟨laidOut, rfl⟩, ?_⟩
  refine Emission.bind_eq_ok_iff.mpr ⟨_, after, parts, ?_⟩
  exact Emission.ofExcept_eq_ok_iff.mpr ⟨written, rfl⟩

/-- A valid body with settled code and room for its clauses can be encoded, if there are tokens for what it names. -/
theorem exists_encode {State : Type} {emitter : Emitter State} {steady : State → Prop} {body : Body}
    (valid : body.validate = .ok ()) (settled : Code.Settled body.instructions)
    (small : Code.size body.instructions < 2 ^ 32) (canonical : ∀ clause ∈ body.clauses, clause.IsCanonical)
    (serves : ∀ instruction ∈ body.instructions, emitter.Serves steady instruction.operand)
    (servesClauses : ∀ clause ∈ body.clauses, ∀ type ∈ clause.catchType, emitter.Serves steady (.type type))
    (few : body.clauses.length ≤ Section.clauseLimit) {before : State} (isSteady : steady before) :
    ∃ bytes after, body.encode emitter before = (.ok bytes, after) ∧ steady after := by
  have wellFormed : ∀ instruction ∈ body.instructions, instruction.isWellFormed = true := by
    intro instruction instructionMem
    exact ((validate_eq_ok_iff.mp valid).1 instruction instructionMem).1
  rcases Code.exists_encode_of_settled settled small wellFormed serves isSteady with
    ⟨code, between, encoded, steadyBetween⟩
  have rest : ∃ bytes after, (do
      if body.fitsTiny code.length then
        return Bytes.encode 1 (code.length * 4 + 2) ++ code
      let start := body.fatHeader code.length ++ code
      if body.clauses.isEmpty then return start
      let clauses ← body.encodeClauses emitter
      return start ++ padding start.length ++ clauses : Emission State (List UInt8)) between = (.ok bytes, after) ∧
        steady after := by
    split
    · exact ⟨_, between, rfl, steadyBetween⟩
    · split
      · exact ⟨_, between, rfl, steadyBetween⟩
      · rcases exists_encodeClauses small canonical servesClauses few steadyBetween with
          ⟨clauses, after, made, steadyAfter⟩
        exact ⟨_, after, Emission.bind_eq_ok_iff.mpr ⟨clauses, after, made, rfl⟩, steadyAfter⟩
  rcases rest with ⟨bytes, after, made, steadyAfter⟩
  refine ⟨bytes, after, ?_, steadyAfter⟩
  refine Emission.bind_eq_ok_iff.mpr ⟨(), before, Emission.ofExcept_eq_ok_iff.mpr ⟨valid, rfl⟩, ?_⟩
  exact Emission.bind_eq_ok_iff.mpr ⟨code, between, encoded, made⟩

end Body

/-! ## Scopes as resolvers and emitters -/

/-- What an orderly scope resolves, it hands a token out for, and does not change. -/
theorem Scope.Coherent.serves {scope : Scope} (coherent : scope.Coherent) {kind : OperandKind} {token : Token}
    {operand : Operand} (resolves : Code.resolveToken scope.resolver kind token = .ok operand) :
    emitter.Serves (· = scope) operand := by
  rintro action asked before rfl
  cases kind
  case type =>
    rcases Fallible.map_eq_ok_iff.mp resolves with ⟨type, named, rfl⟩
    cases asked
    rcases coherent.internAction_of_known (resolveType_eq_ok_iff.mp named) with ⟨first, emitted⟩
    exact ⟨first, before, emitted, rfl⟩
  case field =>
    rcases Fallible.map_eq_ok_iff.mp resolves with ⟨field, named, rfl⟩
    cases asked
    rcases coherent.internAction_of_known (resolveField_eq_ok_iff.mp named) with ⟨first, emitted⟩
    exact ⟨first, before, emitted, rfl⟩
  case method =>
    rcases Fallible.map_eq_ok_iff.mp resolves with ⟨method, named, rfl⟩
    cases asked
    rcases coherent.internAction_of_known (resolveMethod_eq_ok_iff.mp named) with ⟨first, emitted⟩
    exact ⟨first, before, emitted, rfl⟩
  case string =>
    rcases Fallible.map_eq_ok_iff.mp resolves with ⟨string, named, rfl⟩
    cases asked
    rcases coherent.string_of_known (resolveString_eq_ok_iff.mp named) with ⟨first, emitted⟩
    exact ⟨first, before, emitted, rfl⟩
  case symbol =>
    rcases Fallible.map_eq_ok_iff.mp resolves with ⟨symbol, named, rfl⟩
    cases asked
    rcases coherent.internAction_of_known (resolveSymbol_eq_ok_iff.mp named) with ⟨first, emitted⟩
    exact ⟨first, before, by rw [emitter_symbol, emitted], rfl⟩
  all_goals
    cases resolves
    cases asked
    exact ⟨token, before, rfl, rfl⟩

theorem Scope.Coherent.serves_type {scope : Scope} (coherent : scope.Coherent) {token : Token} {type : TypeRef}
    (resolves : scope.resolver.type token = .ok type) : emitter.Serves (· = scope) (.type type) := by
  have asType : Code.resolveToken scope.resolver .type token = .ok (.type type) :=
    Fallible.map_eq_ok_iff.mpr ⟨type, resolves, rfl⟩
  exact coherent.serves asType

namespace Body

/-- A decoded body keeps its form. Layout finds nothing to do, and what encoding makes of the body is decoded to the
body again, whatever it was decoded from. -/
theorem decoded_keeps (scope : Scope) (orderly : scope.Orderly) (data : List UInt8) (body : Body)
    (decoded : decode scope.resolver data = .ok body) :
    (∃ stats, body.layout = (.ok stats, body) ∧ stats.passes = 1 ∧ stats.widened = 0) ∧
      (body.validate = .ok () → body.clauses.length ≤ 699050 →
        ∃ bytes, body.encode Scope.emitter scope = (.ok bytes, scope) ∧
          decode scope.resolver bytes = .ok { body with
            maxStack := if body.fitsTiny (Code.size body.instructions) then defaultMaxStack else body.maxStack }) := by
  have coherent := orderly.coherent
  rcases decode_eq_ok decoded with ⟨code, byteClauses, short, codeDecoded, _, clausesResolved⟩
  rcases Code.settled_of_decode codeDecoded with ⟨settled, length, _⟩
  have small : Code.size body.instructions < 2 ^ 32 := by rw [length]; exact short
  constructor
  · refine ⟨⟨1, 0, Code.size body.instructions⟩, ?_, rfl, rfl⟩
    rw [layout, Code.layout_of_settled settled small]
  · intro valid few
    have serves := Code.serves_of_decode codeDecoded fun kind token operand => coherent.serves
    have clauses := Section.canonical_of_resolveClauses clausesResolved
    have canonical : ∀ clause ∈ body.clauses, clause.IsCanonical := fun clause clauseMem => (clauses clause clauseMem).1
    have servesClauses : ∀ clause ∈ body.clauses, ∀ type ∈ clause.catchType,
        Scope.emitter.Serves (· = scope) (.type type) := by
      intro clause clauseMem type typeMem
      rcases (clauses clause clauseMem).2 type typeMem with ⟨token, resolves⟩
      exact coherent.serves_type resolves
    rcases exists_encode valid settled small canonical serves servesClauses few rfl with ⟨bytes, after, encoded, same⟩
    rw [same] at encoded
    have undoes := Scope.resolver_undoes_emitter scope
    have again := (decode_of_encode undoes settled.placed canonical encoded coherent.settled).2
    exact ⟨bytes, encoded, again.trans (readBack_of_isDefined (isDefined_of_decode decoded) _)⟩

/-- A body with a long header, a chain of two sections, padding that is not zero and a byte too many. -/
def chainedData : List UInt8 :=
  [0x1B, 0x40, 0x08, 0x00, 0x0A, 0x00, 0x00, 0x00, 0x00, 0x00, 0x00, 0x00, 0x00, 0x00, 0x00, 0x00,
    0x72, 0x01, 0x00, 0x00, 0x70, 0x26, 0xDE, 0x01, 0xDC, 0x2A,
    0xCC, 0xCC,
    0x81, 0x10, 0x00, 0x00,
    0x00, 0x00, 0x00, 0x00, 0x08, 0x08, 0x00, 0x01, 0x01, 0x00, 0x00, 0x01,
    0x41, 0x1C, 0x00, 0x00,
    0x02, 0x00, 0x00, 0x00, 0x00, 0x00, 0x00, 0x00, 0x08, 0x00, 0x00, 0x00, 0x08, 0x00, 0x00, 0x00, 0x01, 0x00, 0x00,
    0x00, 0x00, 0x00, 0x00, 0x00,
    0xFF]

/-- The type that the body handles exceptions of. -/
def chainedType : TypeRef := .named ⟨"System", "Exception", none, [], some "mscorlib"⟩

/-- The scope in which the string and the type of the body have tokens, the type two of them. -/
def chainedScope : Scope :=
  ((Scope.empty.defineString ⟨0x70000001⟩ "hall").define ⟨0x01000002⟩ (.type chainedType)).define ⟨0x01000001⟩
    (.type chainedType)

/-- The body that is decoded from the bytes. -/
def chainedBody : Body where
  maxStack := 8
  localSignature := ⟨0⟩
  initLocals := true
  instructions := Code.placeFrom 0
    [.unplaced .ldstr (.string "hall"),
      .unplaced .pop .none,
      .unplaced .leaveS (.target 4),
      .unplaced .endfinally .none,
      .unplaced .ret .none]
  clauses :=
    [⟨.typed, 0, 3, 3, 4, some chainedType, none⟩,
      ⟨.finallyFlag, 0, 3, 3, 4, none, none⟩]

theorem decoded_keeps_chainedBody :
    chainedScope.Orderly ∧ decode chainedScope.resolver chainedData = .ok chainedBody ∧
      chainedBody.validate = .ok () ∧ (∃ stats, chainedBody.layout = (.ok stats, chainedBody)) ∧
      ∃ bytes, chainedBody.encode Scope.emitter chainedScope = (.ok bytes, chainedScope) ∧
        decode chainedScope.resolver bytes = .ok chainedBody := by
  have orderly : chainedScope.Orderly :=
    .define _ (.define _ (.defineString "hall" .empty rfl) (by decide)) (by decide +kernel)
  have decoded : decode chainedScope.resolver chainedData = .ok chainedBody := by decide +kernel
  have valid : chainedBody.validate = .ok () := by decide +kernel
  rcases decoded_keeps chainedScope orderly chainedData chainedBody decoded with ⟨⟨stats, laidOut, _, _⟩, keeps⟩
  rcases keeps valid (by decide) with ⟨bytes, encoded, again⟩
  have fat : chainedBody.fitsTiny (Code.size chainedBody.instructions) = false := by decide +kernel
  rw [fat] at again
  exact ⟨orderly, decoded, valid, ⟨stats, laidOut⟩, bytes, encoded, again⟩

end Body

end CilRelink
