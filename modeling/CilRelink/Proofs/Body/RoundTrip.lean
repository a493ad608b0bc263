import CilRelink.Body.Format
import CilRelink.Proofs.Body.Section
import CilRelink.Proofs.Body.Validity
import CilRelink.Proofs.Code.RoundTrip

/-!
# Encoded bodies read back

Decoding takes back what encoding did, whichever header the body got and whichever form its clauses took. Header, code
and clauses are read back one by one: the header tells how long the code is, the code where its instructions are, and
the instructions what the clauses cover. The tokens lead back in the same order in which they were handed out, so the
clauses settle the state that the code was encoded to, and the code the state before.

Only the depth of the stack is lost, to a tiny header, and bits of clause flags that have no meaning. A clause that has
no other bits set is not read back as it was, and may not be read back at all.
-/

namespace CilRelink

namespace Body

/-! ## Headers -/

/-- The first word of the fat header, which holds the flags and the size of the header. -/
def headerWord (body : Body) : Nat :=
  3 * 2 ^ 12 + (3 + (if body.initLocals then initLocalsFlag else 0) +
    (if body.clauses.isEmpty then 0 else sectionsFlag))

theorem headerWord_facts (body : Body) :
    body.headerWord < 2 ^ 16 ∧ body.headerWord % 4 = 3 ∧ body.headerWord / 2 ^ 12 * 4 = fatHeaderSize ∧
      Section.hasFlag body.headerWord sectionsFlag = !body.clauses.isEmpty ∧
      Section.hasFlag body.headerWord initLocalsFlag = body.initLocals := by
  unfold headerWord
  cases body.initLocals <;> cases body.clauses.isEmpty <;> decide

theorem fatHeader_eq (body : Body) (codeSize : Nat) :
    body.fatHeader codeSize = (List.zipWith Bytes.encode [2, 2, 4, 4]
      [body.headerWord, body.maxStack.toNat, codeSize, body.localSignature.value.toNat]).flatten := by
  simp only [fatHeader, headerWord, Token.bytes, List.zipWith_cons_cons, List.zipWith_nil_left, List.flatten_cons,
    List.flatten_nil, List.append_nil, List.append_assoc]

theorem length_fatHeader (body : Body) (codeSize : Nat) : (body.fatHeader codeSize).length = fatHeaderSize := by
  simp [fatHeader_eq, fatHeaderSize]

theorem readWidths_fatHeader (body : Body) {codeSize : Nat} (small : codeSize < 2 ^ 32) (rest : List UInt8) :
    Section.readWidths [2, 2, 4, 4] (body.fatHeader codeSize ++ rest) =
      some ([body.headerWord, body.maxStack.toNat, codeSize, body.localSignature.value.toNat], rest) := by
  rw [fatHeader_eq]
  apply Section.readWidths_of_fitWidths
  exact .cons body.headerWord_facts.1 (.cons body.maxStack.toNat_lt
    (.cons small (.cons body.localSignature.value.toNat_lt .nil)))

theorem decode_tiny (resolver : Resolver) {code : List UInt8} (small : code.length ≤ tinyCodeLimit) :
    decode resolver (Bytes.encode 1 (code.length * 4 + 2) ++ code) = ofInstructions <$> Code.decode resolver code := by
  have first : (UInt8.ofNat (code.length * 4 + 2)).toNat = code.length * 4 + 2 := by
    apply UInt8.toNat_ofNat_of_lt'
    change code.length * 4 + 2 < 256
    change code.length ≤ 63 at small
    omega
  have kind : (code.length * 4 + 2) % 4 = 2 := by omega
  have size : (code.length * 4 + 2) / 4 = code.length := by omega
  rw [Bytes.encode_one_append]
  simp only [decode, first, kind, size, if_true, decodeTiny, Nat.lt_irrefl, if_false, List.take_length]

theorem decode_of_fatKind (resolver : Resolver) {first : UInt8} {rest : List UInt8} (kind : first.toNat % 4 = 3) :
    decode resolver (first :: rest) = decodeFat resolver (first :: rest) := by
  rw [decode, kind, if_neg (by decide), if_pos rfl]

theorem decodeFat_fatHeader {resolver : Resolver} {body : Body} {code rest : List UInt8}
    (small : code.length < 2 ^ 32) (instructions : Code.decode resolver code = .ok body.instructions)
    {result : Except Error (List Clause)}
    (clauses : (if body.clauses.isEmpty then pure []
      else decodeClauses resolver body.instructions code.length
        ((body.fatHeader code.length ++ code ++ rest).drop (Section.alignUp (fatHeaderSize + code.length)))) = result) :
    decodeFat resolver (body.fatHeader code.length ++ code ++ rest) =
      (fun clauses => { body with clauses }) <$> result := by
  rcases body.headerWord_facts with ⟨_, _, size, sections, initLocals⟩
  have header := body.length_fatHeader code.length
  have parts := readWidths_fatHeader body small (code ++ rest)
  rw [← List.append_assoc] at parts
  have inside : ¬ (body.fatHeader code.length ++ code ++ rest).length < fatHeaderSize + code.length := by
    simp only [List.length_append, header]
    omega
  have middle : ((body.fatHeader code.length ++ code ++ rest).drop fatHeaderSize).take code.length = code := by
    rw [List.append_assoc, ← header, List.drop_left, List.take_left]
  rw [decodeFat, parts]
  simp only [size, Nat.lt_irrefl, if_false, inside, middle, sections, initLocals, instructions, UInt16.ofNat_toNat,
    UInt32.ofNat_toNat]
  rw [← clauses]
  cases body.clauses.isEmpty <;> rfl

theorem decode_fatHeader {resolver : Resolver} {body : Body} {code rest : List UInt8}
    (small : code.length < 2 ^ 32) (instructions : Code.decode resolver code = .ok body.instructions)
    {result : Except Error (List Clause)}
    (clauses : (if body.clauses.isEmpty then pure []
      else decodeClauses resolver body.instructions code.length
        ((body.fatHeader code.length ++ code ++ rest).drop (Section.alignUp (fatHeaderSize + code.length)))) = result) :
    decode resolver (body.fatHeader code.length ++ code ++ rest) =
      (fun clauses => { body with clauses }) <$> result := by
  have kind : (UInt8.ofNat body.headerWord).toNat % 4 = 3 := by
    have low := body.headerWord_facts.2.1
    rw [UInt8.toNat_ofNat']
    omega
  exact (decode_of_fatKind resolver kind).trans (decodeFat_fatHeader small instructions clauses)

/-! ## Clauses -/

theorem decodeClauses_encodeClauses {State : Type} {resolver : Resolver} {emitter : Emitter State}
    {settled : State → Prop} (undoes : resolver.Undoes emitter settled) {body : Body} {before after : State}
    {bytes : List UInt8} (placed : Code.IsPlaced body.instructions)
    (canonical : ∀ clause ∈ body.clauses, clause.IsCanonical)
    (inside : ∀ clause ∈ body.clauses, clause.isInside body.instructions.length = true)
    (encoded : body.encodeClauses emitter before = (.ok bytes, after)) (settles : settled after) :
    settled before ∧
      decodeClauses resolver body.instructions (Code.size body.instructions) bytes =
        body.clauses.mapM (Clause.readBack resolver) := by
  rcases Emission.bind_eq_ok_iff.mp encoded with ⟨places, between, found, more⟩
  rcases Emission.ofExcept_eq_ok_iff.mp found with ⟨laidOut, rfl⟩
  rcases Code.offsets_eq_ok_iff.mp laidOut with ⟨small, rfl⟩
  rcases Emission.bind_eq_ok_iff.mp more with ⟨byteClauses, last, parts, made⟩
  rcases Emission.ofExcept_eq_ok_iff.mp made with ⟨written, rfl⟩
  rcases Section.resolveClauses_toBytesOf undoes placed small canonical inside parts settles with
    ⟨settledBefore, partsSmall, resolves⟩
  refine ⟨settledBefore, ?_⟩
  rw [decodeClauses, Section.readChain_sectionBytes partsSmall written]
  exact resolves

theorem length_padding (size : Nat) : size + (padding size).length = Section.alignUp size := by
  rw [padding, List.length_replicate, Section.alignUp]
  omega

/-- Behind the padding comes what is at the next multiple of four. -/
theorem drop_padding {start : List UInt8} {size : Nat} (length : start.length = size) (rest : List UInt8) :
    (start ++ (padding start.length ++ rest)).drop (Section.alignUp size) = rest := by
  rw [← List.append_assoc, ← length, ← length_padding start.length, ← List.length_append, List.drop_left]

/-! ## Bodies -/

theorem ofInstructions_of_fitsTiny {body : Body} {codeSize : Nat} (tiny : body.fitsTiny codeSize = true) :
    ofInstructions body.instructions = { body with maxStack := defaultMaxStack } := by
  rcases body with ⟨maxStack, localSignature, initLocals, instructions, clauses⟩
  simp only [fitsTiny, Token.isNull, Bool.and_eq_true, decide_eq_true_eq, Bool.not_eq_true', List.isEmpty_iff] at tiny
  rcases tiny with ⟨⟨⟨⟨_, _⟩, null⟩, rfl⟩, rfl⟩
  rcases localSignature with ⟨value⟩
  subst null
  rfl

/-- What a body is read back as: without the depth of its stack if it is announced by a tiny header, and without the
bits of clause flags that have no meaning. -/
def readBack (resolver : Resolver) (body : Body) : Except Error Body :=
  (fun clauses => { body with
    maxStack := if body.fitsTiny (Code.size body.instructions) then defaultMaxStack else body.maxStack
    clauses }) <$> body.clauses.mapM (Clause.readBack resolver)

theorem readBack_of_isDefined {body : Body} (defined : ∀ clause ∈ body.clauses, clause.flags.IsDefined)
    (resolver : Resolver) :
    body.readBack resolver = .ok { body with
      maxStack := if body.fitsTiny (Code.size body.instructions) then defaultMaxStack else body.maxStack } := by
  rw [readBack, Clause.mapM_readBack_of_isDefined defined]
  rfl

theorem decode_of_encode {State : Type} {resolver : Resolver} {emitter : Emitter State} {settled : State → Prop}
    (undoes : resolver.Undoes emitter settled) {body : Body} {before after : State} {bytes : List UInt8}
    (placed : Code.IsPlaced body.instructions) (canonical : ∀ clause ∈ body.clauses, clause.IsCanonical)
    (encoded : body.encode emitter before = (.ok bytes, after)) (settles : settled after) :
    settled before ∧ decode resolver bytes = body.readBack resolver := by
  rcases Emission.bind_eq_ok_iff.mp encoded with ⟨⟨⟩, _, checked, more⟩
  rcases Emission.ofExcept_eq_ok_iff.mp checked with ⟨valid, rfl⟩
  rcases Emission.bind_eq_ok_iff.mp more with ⟨code, between, first, rest⟩
  have inside : ∀ clause ∈ body.clauses, clause.isInside body.instructions.length = true := by
    intro clause clauseMem
    exact ((validate_eq_ok_iff.mp valid).2 clause clauseMem).1
  unfold readBack
  split at rest
  · rename_i tiny
    rcases Emission.pure_eq_ok_iff.mp rest with ⟨rfl, rfl⟩
    rcases Code.decode_of_encode undoes placed first settles with ⟨settledBefore, _, length, decoded⟩
    refine ⟨settledBefore, ?_⟩
    have facts := tiny
    simp only [fitsTiny, Bool.and_eq_true, decide_eq_true_eq] at facts
    have short : code.length ≤ tinyCodeLimit := facts.1.1.1.1
    have none : body.clauses = [] := List.isEmpty_iff.mp facts.2
    rw [decode_tiny resolver short, decoded, ← length, if_pos tiny, none]
    exact congrArg Except.ok ((ofInstructions_of_fitsTiny tiny).trans (by rw [none]; rfl))
  · rename_i fat
    rw [Bool.not_eq_true] at fat
    split at rest
    · rename_i none
      rcases Emission.pure_eq_ok_iff.mp rest with ⟨rfl, rfl⟩
      rcases Code.decode_of_encode undoes placed first settles with ⟨settledBefore, small, length, decoded⟩
      refine ⟨settledBefore, ?_⟩
      rw [← length] at small ⊢
      rw [fat, if_neg Bool.false_ne_true, ← List.append_nil (_ ++ code)]
      refine decode_fatHeader small decoded ?_
      rw [if_pos none, List.isEmpty_iff.mp none]
      rfl
    · rename_i some
      rcases Emission.bind_eq_ok_iff.mp rest with ⟨clauses, last, second, made⟩
      rcases Emission.pure_eq_ok_iff.mp made with ⟨rfl, rfl⟩
      rcases decodeClauses_encodeClauses undoes placed canonical inside second settles with
        ⟨settledBetween, clausesDecoded⟩
      rcases Code.decode_of_encode undoes placed first settledBetween with ⟨settledBefore, small, length, decoded⟩
      refine ⟨settledBefore, ?_⟩
      rw [← length] at small clausesDecoded ⊢
      rw [fat, if_neg Bool.false_ne_true, List.append_assoc]
      refine decode_fatHeader small decoded ?_
      rw [if_neg some, drop_padding (by rw [List.length_append, length_fatHeader])]
      exact clausesDecoded

/-- Decoding takes back what encoding did, for every resolver that finds what the emitter handed out tokens for. Bits of
clause flags that have no meaning are lost, and where there are none, only the depth of the stack is, and only to a tiny
header, which has no place for it. -/
theorem decode_encode {State : Type} (resolver : Resolver) (emitter : Emitter State) (settled : State → Prop)
    (undoes : resolver.Undoes emitter settled) (body : Body) (placed : Code.IsPlaced body.instructions)
    (canonical : ∀ clause ∈ body.clauses, clause.IsCanonical) {before after : State} {bytes : List UInt8}
    (encoded : body.encode emitter before = (.ok bytes, after)) (settles : settled after) :
    decode resolver bytes = body.readBack resolver ∧
      ((∀ clause ∈ body.clauses, clause.flags.IsDefined) →
        ∃ decoded, decode resolver bytes = .ok decoded ∧ decoded.instructions = body.instructions ∧
          decoded.clauses = body.clauses ∧ decoded.localSignature = body.localSignature ∧
          decoded.initLocals = body.initLocals ∧
          decoded.maxStack =
            if body.fitsTiny (Code.size body.instructions) then defaultMaxStack else body.maxStack) := by
  have decoded := (decode_of_encode undoes placed canonical encoded settles).2
  refine ⟨decoded, fun defined => ?_⟩
  rw [readBack_of_isDefined defined] at decoded
  exact ⟨_, decoded, rfl, rfl, rfl, rfl, rfl⟩

/-- A call with a string that is guarded by a handler. -/
def guardedBody : Body where
  maxStack := 3
  localSignature := ⟨0x11000001⟩
  initLocals := true
  instructions := Code.placeFrom 0
    [.unplaced .ldstr (.string "hall"),
      .unplaced .call (.method
        ⟨.named ⟨"", "Door", none, [], some "House"⟩, "shut", TypeRef.void, [HostType.string.reference], false, []⟩),
      .unplaced .leaveS (.target 5),
      .unplaced .pop .none,
      .unplaced .leaveS (.target 5),
      .unplaced .ret .none]
  clauses := [⟨.typed, 0, 3, 3, 5, some (.named ⟨"System", "Exception", none, [], some "mscorlib"⟩), none⟩]

/-- The scope that knows the tokens of the guarded body, and no others. -/
def guardedScope : Scope := (guardedBody.encode Scope.emitter .empty).2

theorem decode_encode_guardedBody :
    ∃ bytes, guardedBody.encode Scope.emitter .empty = (.ok bytes, guardedScope) ∧ bytes.length = 44 ∧
      guardedScope.SettledIn guardedScope ∧ Code.IsPlaced guardedBody.instructions ∧
      (∀ clause ∈ guardedBody.clauses, clause.IsCanonical) ∧ (∀ clause ∈ guardedBody.clauses, clause.flags.IsDefined) ∧
      ∃ decoded, decode guardedScope.resolver bytes = .ok decoded ∧
        decoded.instructions = guardedBody.instructions ∧ decoded.clauses = guardedBody.clauses ∧
        decoded.maxStack = 3 := by
  have succeeds : (guardedBody.encode Scope.emitter .empty).1 =
      .ok ((guardedBody.encode Scope.emitter .empty).1.toOption.getD []) := by
    decide +kernel
  have encoded : guardedBody.encode Scope.emitter .empty = (.ok _, guardedScope) := Prod.ext succeeds rfl
  have settles : guardedScope.SettledIn guardedScope := .of_entries (by decide +kernel) (by decide +kernel)
  have placed : Code.IsPlaced guardedBody.instructions := Code.isPlaced_placeFrom _
  have canonical : ∀ clause ∈ guardedBody.clauses, clause.IsCanonical := by
    intro clause clauseMem
    rw [List.mem_singleton.mp clauseMem]
    exact ⟨rfl, rfl⟩
  have defined : ∀ clause ∈ guardedBody.clauses, clause.flags.IsDefined := by decide
  rcases (decode_encode guardedScope.resolver Scope.emitter guardedScope.SettledIn
    guardedScope.resolver_undoes_emitter guardedBody placed canonical encoded settles).2 defined with
    ⟨decoded, decodes, instructions, clauses, _, _, maxStack⟩
  have depth : decoded.maxStack = 3 := maxStack.trans (by decide +kernel)
  exact ⟨_, encoded, by decide +kernel, settles, placed, canonical, defined, decoded, decodes, instructions, clauses,
    depth⟩

/-- A body with a clause that has the given flags and neither a type nor a filter. -/
def strayBody (flags : ClauseFlags) : Body :=
  { ofInstructions (Code.placeFrom 0 [.unplaced .nop .none, .unplaced .ret .none]) with
    clauses := [⟨flags, 0, 1, 1, 2, none, none⟩] }

/-- The bytes of the body, the low byte of the flags among them. -/
def strayData (flags : UInt8) : List UInt8 :=
  [0x0B, 0x30, 0x08, 0x00, 0x02, 0x00, 0x00, 0x00, 0x00, 0x00, 0x00, 0x00,
    0x00, 0x2A,
    0x00, 0x00,
    0x01, 0x10, 0x00, 0x00,
    flags, 0x00, 0x00, 0x00, 0x01, 0x01, 0x00, 0x01, 0x00, 0x00, 0x00, 0x00]

/-- A bit without a meaning does not come back, and if there is no other, nothing does: the clause is taken for one that
handles exceptions of a type. -/
theorem undefined_flags_lost :
    Scope.empty.resolver.Undoes Scope.emitter Scope.empty.SettledIn ∧ Scope.empty.SettledIn Scope.empty ∧
      (∀ flags ∈ [(⟨0x0008⟩ : ClauseFlags), ⟨0x000A⟩],
        (strayBody flags).validate = .ok () ∧ Code.IsPlaced (strayBody flags).instructions ∧
          ∀ clause ∈ (strayBody flags).clauses, clause.IsCanonical) ∧
      (strayBody ⟨0x0008⟩).encode Scope.emitter Scope.empty = (.ok (strayData 0x08), Scope.empty) ∧
      decode Scope.empty.resolver (strayData 0x08) = .error (.unresolvedToken Token.null) ∧
      (strayBody ⟨0x000A⟩).encode Scope.emitter Scope.empty = (.ok (strayData 0x0A), Scope.empty) ∧
      decode Scope.empty.resolver (strayData 0x0A) = .ok (strayBody .finallyFlag) ∧
      strayBody .finallyFlag ≠ strayBody ⟨0x000A⟩ := by
  refine ⟨Scope.empty.resolver_undoes_emitter, .of_entries (by decide +kernel) (by decide +kernel),
    ?_, ?_, ?_, ?_, ?_, ?_⟩
  · intro flags flagsMem
    have untyped : flags.isTyped = false ∧ flags.isFilter = false := by
      revert flags
      decide
    refine ⟨?_, Code.isPlaced_placeFrom _, ?_⟩
    · revert flags
      decide +kernel
    · intro clause clauseMem
      rw [List.mem_singleton.mp clauseMem]
      exact ⟨untyped.1.symm, untyped.2.symm⟩
  · exact Prod.ext (by decide +kernel) rfl
  · decide +kernel
  · exact Prod.ext (by decide +kernel) rfl
  · decide +kernel
  · decide

end Body

end CilRelink
