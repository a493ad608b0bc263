import Mathlib.Data.List.Forall2
import CilRelink.Body.Section
import CilRelink.Body.Validity
import CilRelink.Proofs.Bytes.Numbers
import CilRelink.Proofs.Code.Offsets
import CilRelink.Proofs.Scope

/-!
# Encoded clauses read back

Clauses go through two forms on their way into bytes: positions become offsets, and the offsets are written with
narrow or with wide parts. Both steps can be taken back. Positions come back because the instructions are where the
code in front of them ends, and parts come back because the small form is taken only by clauses that fit it.

Flags are written with all their bits, but only bits with a meaning are read. So others are lost, and a clause that had
no bit with a meaning is taken for one that handles exceptions of a type. Where its token should be stands a zero.
-/

namespace CilRelink

namespace Code

theorem getD_offsetsFrom {code : List Instruction} {position : Nat} (inside : position ≤ code.length) :
    (offsetsFrom 0 code).toArray.getD position 0 = size (code.take position) := by
  rw [Array.getD_eq_getD_getElem?, List.getElem?_toArray, getElem?_offsetsFrom 0 inside]
  simp

end Code

namespace ClauseFlags

theorem toNat_lt (flags : ClauseFlags) : flags.toNat < 2 ^ 16 := flags.bits.toNat_lt

/-- Bits without a meaning are written, but not read. -/
theorem ofNat_toNat (flags : ClauseFlags) : ofNat flags.toNat = flags.truncated := by
  rw [ofNat, toNat, UInt16.ofNat_toNat]

@[simp]
theorem truncated_truncated (flags : ClauseFlags) : flags.truncated.truncated = flags.truncated := by
  simp only [truncated, UInt16.and_assoc, UInt16.and_self]

@[simp]
theorem isFilter_truncated (flags : ClauseFlags) : flags.truncated.isFilter = flags.isFilter := by
  have meant : definedBits &&& filterFlag.bits = filterFlag.bits := by decide
  simp only [isFilter, contains, truncated, UInt16.and_assoc, meant]

@[simp]
theorem truncated_typed : typed.truncated = typed := rfl

theorem isTyped_truncated_of_isTyped {flags : ClauseFlags} (handlesType : flags.isTyped = true) :
    flags.truncated.isTyped = true := by
  rw [of_decide_eq_true handlesType, truncated_typed]
  rfl

theorem not_isTyped_of_isFilter {flags : ClauseFlags} (filters : flags.isFilter = true) : flags.isTyped = false := by
  simp only [isTyped, decide_eq_false_iff_not]
  rintro rfl
  cases filters

/-- Whether all bits that are set have a meaning. -/
def IsDefined (flags : ClauseFlags) : Prop := flags.truncated = flags

instance (flags : ClauseFlags) : Decidable flags.IsDefined := inferInstanceAs (Decidable (_ = _))

theorem isDefined_truncated (flags : ClauseFlags) : flags.truncated.IsDefined := truncated_truncated flags

end ClauseFlags

/-- Whether the clause has a type if and only if it handles exceptions of a type, and a filter if and only if it asks
one. -/
structure Clause.IsCanonical (clause : Clause) : Prop where
  catchType : clause.catchType.isSome = clause.flags.isTyped
  filterStart : clause.filterStart.isSome = clause.flags.isFilter

/-- The clause as it is read back, without the bits of its flags that have no meaning. -/
def ByteClause.truncated (clause : ByteClause) : ByteClause := { clause with flags := clause.flags.truncated }

/-- The type with which a clause is read back. If bits without a meaning were all that told that it handles no type, it
is taken to handle one, and has the null token for it. -/
def Clause.catchTypeReadBack (resolver : Resolver) (clause : Clause) : Except Error (Option TypeRef) :=
  if clause.flags.truncated.isTyped && !clause.flags.isTyped then some <$> resolver.type Token.null
  else .ok clause.catchType

/-- What a clause is read back as, without the bits of its flags that have no meaning. -/
def Clause.readBack (resolver : Resolver) (clause : Clause) : Except Error Clause :=
  (fun catchType => { clause with flags := clause.flags.truncated, catchType }) <$> clause.catchTypeReadBack resolver

theorem Clause.readBack_of_isDefined {clause : Clause} (defined : clause.flags.IsDefined) (resolver : Resolver) :
    clause.readBack resolver = .ok clause := by
  unfold readBack catchTypeReadBack
  rw [defined, Bool.and_not_self, if_neg Bool.false_ne_true]
  rfl

theorem Clause.mapM_readBack_of_isDefined {clauses : List Clause} (defined : ∀ clause ∈ clauses, clause.flags.IsDefined)
    (resolver : Resolver) : clauses.mapM (Clause.readBack resolver) = .ok clauses := by
  induction clauses with
  | nil => rfl
  | cons clause clauses ih =>
      rw [List.forall_mem_cons] at defined
      rw [List.mapM_cons, Clause.readBack_of_isDefined defined.1, ih defined.2]
      rfl

namespace Section

open Bytes (encode)

/-! ## Parts of fixed widths -/

/-- Whether each number fits the width that it is written with. -/
def FitWidths : List Nat → List Nat → Prop := List.Forall₂ fun width number => number < 256 ^ width

theorem readWidths_of_fitWidths {widths numbers : List Nat} (fits : FitWidths widths numbers) (rest : List UInt8) :
    readWidths widths ((List.zipWith encode widths numbers).flatten ++ rest) = some (numbers, rest) := by
  induction fits with
  | nil => rfl
  | cons small fits ih =>
      rw [List.zipWith_cons_cons, List.flatten_cons, List.append_assoc, readWidths]
      simp only [Bytes.read_encode_of_lt small, ih, Option.map_some]

theorem ofParts?_parts (clause : ByteClause) : ByteClause.ofParts? clause.parts = some clause.truncated := by
  simp only [ByteClause.parts, ByteClause.ofParts?, ClauseFlags.ofNat_toNat, ByteClause.truncated]

theorem readClauses_of_fitWidths {widths : List Nat} {clauses : List ByteClause}
    (fits : ∀ clause ∈ clauses, FitWidths widths clause.parts) :
    readClauses widths clauses.length (clauses.flatMap (clauseBytes widths)) =
      some (clauses.map ByteClause.truncated) := by
  induction clauses with
  | nil => rfl
  | cons clause clauses ih =>
      rw [List.forall_mem_cons] at fits
      rw [List.length_cons, List.flatMap_cons, readClauses, clauseBytes, readWidths_of_fitWidths fits.1]
      simp only [ofParts?_parts, ih fits.2, List.map_cons]

theorem length_flatMap_clauseBytes {widths : List Nat} {width : Nat}
    (each : ∀ clause, (clauseBytes widths clause).length = width) (clauses : List ByteClause) :
    (clauses.flatMap (clauseBytes widths)).length = clauses.length * width := by
  induction clauses with
  | nil => simp
  | cons clause clauses ih =>
      rw [List.flatMap_cons, List.length_append, each, ih, List.length_cons, Nat.succ_mul, Nat.add_comm]

theorem length_clauseBytes_smallWidths (clause : ByteClause) :
    (clauseBytes smallWidths clause).length = smallClauseSize := by
  simp [clauseBytes, ByteClause.parts, smallWidths, smallClauseSize]

theorem length_clauseBytes_fatWidths (clause : ByteClause) :
    (clauseBytes fatWidths clause).length = fatClauseSize := by
  simp [clauseBytes, ByteClause.parts, fatWidths, fatClauseSize]

theorem fitWidths_fatWidths {clause : ByteClause} (small : ∀ part ∈ clause.parts, part < 256 ^ 4) :
    FitWidths fatWidths clause.parts := by
  simp only [ByteClause.parts, List.forall_mem_cons, List.not_mem_nil, false_implies, implies_true, and_true] at small
  rcases small with ⟨flags, tryOffset, tryLength, handlerOffset, handlerLength, extra⟩
  exact .cons flags (.cons tryOffset (.cons tryLength (.cons handlerOffset (.cons handlerLength (.cons extra .nil)))))

theorem fitWidths_smallWidths {clause : ByteClause} (small : ∀ part ∈ clause.parts, part < 256 ^ 4)
    (narrow : isNarrow clause = true) : FitWidths smallWidths clause.parts := by
  have extra : clause.extra < 256 ^ 4 := small clause.extra (by simp [ByteClause.parts])
  have flags : clause.flags.toNat < 256 ^ 2 := clause.flags.toNat_lt
  simp only [isNarrow, Bool.and_eq_true, decide_eq_true_eq] at narrow
  rcases narrow with ⟨⟨⟨tryOffset, tryLength⟩, handlerOffset⟩, handlerLength⟩
  exact .cons flags (.cons tryOffset (.cons tryLength (.cons handlerOffset (.cons handlerLength (.cons extra .nil)))))

/-! ## Sections -/

theorem readChain_of_clauses? (size : Nat) {head : UInt8} {tail : List UInt8} {clauses : List ByteClause}
    (holds : hasFlag head.toNat clauseFlag = true) (last : hasFlag head.toNat moreFlag = false)
    (sized : size? head.toNat (head :: tail) = some size) (large : 4 ≤ size) (inside : size ≤ tail.length + 1)
    (found : clauses? head.toNat size (head :: tail) = some clauses) : readChain (head :: tail) = .ok clauses := by
  have fits : ¬ (size < 4 ∨ tail.length + 1 < size) := by omega
  rw [readChain]
  simp only [holds, Bool.not_true, Bool.false_eq_true, if_false, sized, if_neg fits, found, last]

theorem readChain_small {clauses : List ByteClause} (short : 4 + clauses.length * smallClauseSize < 256 ^ 1)
    (fits : ∀ clause ∈ clauses, FitWidths smallWidths clause.parts) :
    readChain (encode 1 clauseFlag ++ encode 1 (4 + clauses.length * smallClauseSize) ++ encode 2 0 ++
      clauses.flatMap (clauseBytes smallWidths)) = .ok (clauses.map ByteClause.truncated) := by
  have count : (4 + clauses.length * smallClauseSize - 4) / smallClauseSize = clauses.length := by
    rw [Nat.add_sub_cancel_left, Nat.mul_div_cancel _ (by decide)]
  rw [List.append_assoc, List.append_assoc, Bytes.encode_one_append clauseFlag]
  apply readChain_of_clauses? (4 + clauses.length * smallClauseSize) (by decide) (by decide)
  · rw [size?, if_neg (by decide), List.drop_one, List.tail_cons, Bytes.read_encode_of_lt short]
  · exact Nat.le_add_right 4 _
  · simp only [List.length_append, Bytes.length_encode, length_flatMap_clauseBytes length_clauseBytes_smallWidths]
    omega
  · rw [clauses?, if_neg (by decide), count]
    exact readClauses_of_fitWidths fits

theorem readChain_fat {clauses : List ByteClause} (short : 4 + clauses.length * fatClauseSize < 256 ^ 3)
    (fits : ∀ clause ∈ clauses, FitWidths fatWidths clause.parts) :
    readChain (encode 1 (clauseFlag + fatFlag) ++ encode 3 (4 + clauses.length * fatClauseSize) ++
      clauses.flatMap (clauseBytes fatWidths)) = .ok (clauses.map ByteClause.truncated) := by
  have count : (4 + clauses.length * fatClauseSize - 4) / fatClauseSize = clauses.length := by
    rw [Nat.add_sub_cancel_left, Nat.mul_div_cancel _ (by decide)]
  have head : (UInt8.ofNat (clauseFlag + fatFlag)).toNat = 65 := by decide
  rw [List.append_assoc, Bytes.encode_one_append]
  apply readChain_of_clauses? (4 + clauses.length * fatClauseSize) (by decide) (by decide)
  · rw [size?, if_pos (by decide), Bytes.read, Bytes.read_encode_of_lt short]
    simp only [Option.map_some, head, Option.some.injEq]
    omega
  · exact Nat.le_add_right 4 _
  · simp only [List.length_append, Bytes.length_encode, length_flatMap_clauseBytes length_clauseBytes_fatWidths]
    omega
  · rw [clauses?, if_pos (by decide), count]
    exact readClauses_of_fitWidths fits

/-- The section of clauses whose parts take four bytes at most is read back, in whichever form it is. -/
theorem readChain_sectionBytes {clauses : List ByteClause} {bytes : List UInt8}
    (small : ∀ clause ∈ clauses, ∀ part ∈ clause.parts, part < 256 ^ 4)
    (made : sectionBytes clauses = .ok bytes) : readChain bytes = .ok (clauses.map ByteClause.truncated) := by
  unfold sectionBytes at made
  simp only at made
  split at made
  · rename_i takesSmall
    cases made
    simp only [Bool.and_eq_true, decide_eq_true_eq, List.all_eq_true] at takesSmall
    apply readChain_small takesSmall.1
    intro clause clauseMem
    exact fitWidths_smallWidths (small clause clauseMem) (takesSmall.2 clause clauseMem)
  · split at made
    · rename_i takesFat
      cases made
      apply readChain_fat takesFat
      intro clause clauseMem
      exact fitWidths_fatWidths (small clause clauseMem)
    · cases made

/-! ## Regions -/

section Regions

variable {State : Type} {resolver : Resolver} {emitter : Emitter State} {settled : State → Prop}
variable {code : List Instruction} {clause : Clause} {before after : State}

theorem start_size_take (placed : Code.IsPlaced code) {position : Nat} (inside : position ≤ code.length) :
    resolveClause.start code (Code.size code) (Code.size (code.take position)) = .ok position := by
  simp only [resolveClause.start, (Code.positionOf?_eq_some_iff placed).mpr ⟨inside, rfl⟩]

/-- A region that is not empty ends where its offset and its length say. -/
theorem stop_size_take (placed : Code.IsPlaced code) (small : Code.size code < 2 ^ 32) {first last : Nat}
    (nonempty : first < last) (inside : last ≤ code.length) :
    resolveClause.stop code (Code.size code) (Code.size (code.take first))
      (Code.size (code.take last) - Code.size (code.take first)) = .ok last := by
  have order : Code.size (code.take first) < Code.size (code.take last) :=
    Code.size_take_lt_of_lt nonempty (by omega)
  have total := Code.size_take_le code last
  have stop : Code.size (code.take first) + (Code.size (code.take last) - Code.size (code.take first)) =
      Code.size (code.take last) := by omega
  rw [resolveClause.stop, stop, if_pos (by omega), start_size_take placed inside]

/-- What a clause says besides its regions comes back, and each clause has a use for it in at most one way. -/
theorem resolve_extraOf (undoes : resolver.Undoes emitter settled) (placed : Code.IsPlaced code)
    (small : Code.size code < 2 ^ 32) (canonical : clause.IsCanonical)
    (inside : ∀ start ∈ clause.filterStart, start < code.length) {extra : Nat}
    (made : extraOf emitter (Code.offsetsFrom 0 code).toArray clause before = (.ok extra, after))
    (settles : settled after) :
    settled before ∧ extra < 2 ^ 32 ∧
      (if clause.flags.truncated.isTyped then some <$> resolver.type ⟨UInt32.ofNat extra⟩ else pure none) =
        clause.catchTypeReadBack resolver ∧
      (if clause.flags.isFilter then some <$> resolveClause.start code (Code.size code) extra else pure none) =
        .ok clause.filterStart := by
  have catches := canonical.catchType
  have filters := canonical.filterStart
  unfold extraOf at made
  unfold Clause.catchTypeReadBack
  cases isFilter : clause.flags.isFilter with
  | true =>
      have untyped := ClauseFlags.not_isTyped_of_isFilter isFilter
      have untypedBack := ClauseFlags.not_isTyped_of_isFilter ((clause.flags.isFilter_truncated).trans isFilter)
      rw [isFilter, Option.isSome_iff_exists] at filters
      rw [untyped, Option.isSome_eq_false_iff, Option.isNone_iff_eq_none] at catches
      rcases filters with ⟨start, filterStart⟩
      rw [isFilter, if_pos rfl, filterStart] at made
      rcases Emission.pure_eq_ok_iff.mp made with ⟨rfl, rfl⟩
      have before : start < code.length := inside start filterStart
      have total := Code.size_take_le code start
      simp only [untypedBack, catches, filterStart, Code.getD_offsetsFrom (Nat.le_of_lt before),
        start_size_take placed (Nat.le_of_lt before)]
      exact ⟨settles, by omega, rfl, rfl⟩
  | false =>
      rw [isFilter, Option.isSome_eq_false_iff, Option.isNone_iff_eq_none] at filters
      rw [isFilter, if_neg (by decide)] at made
      cases isTyped : clause.flags.isTyped with
      | true =>
          rw [isTyped, Option.isSome_iff_exists] at catches
          rcases catches with ⟨type, catchType⟩
          rw [isTyped, if_pos rfl, catchType] at made
          rcases Emission.map_eq_ok_iff.mp made with ⟨token, emitted, rfl⟩
          rcases undoes.type emitted settles with ⟨resolves, settledBefore⟩
          simp only [filters, catchType, UInt32.ofNat_toNat, resolves,
            ClauseFlags.isTyped_truncated_of_isTyped isTyped]
          exact ⟨settledBefore, token.value.toNat_lt, rfl, rfl⟩
      | false =>
          -- a zero is written, and it is a token if no bit with a meaning is set
          rw [isTyped, Option.isSome_eq_false_iff, Option.isNone_iff_eq_none] at catches
          rw [isTyped, if_neg (by decide)] at made
          rcases Emission.pure_eq_ok_iff.mp made with ⟨rfl, rfl⟩
          rw [filters, catches, Bool.not_false, Bool.and_true]
          exact ⟨settles, by decide, rfl, rfl⟩

/-- The parts of a clause are resolved one after the other, whatever its flags are. -/
theorem resolveClause_eq (resolver : Resolver) (code : List Instruction) (codeSize : Nat) (bytes : ByteClause) :
    resolveClause resolver code codeSize bytes =
      ((if bytes.flags.isTyped then some <$> resolver.type ⟨UInt32.ofNat bytes.extra⟩ else pure none) >>=
        fun catchType =>
      (if bytes.flags.isFilter then some <$> resolveClause.start code codeSize bytes.extra else pure none) >>=
        fun filterStart => do
      let tryStart ← resolveClause.start code codeSize bytes.tryOffset
      let tryEnd ← resolveClause.stop code codeSize bytes.tryOffset bytes.tryLength
      let handlerStart ← resolveClause.start code codeSize bytes.handlerOffset
      let handlerEnd ← resolveClause.stop code codeSize bytes.handlerOffset bytes.handlerLength
      return ⟨bytes.flags, tryStart, tryEnd, handlerStart, handlerEnd, catchType, filterStart⟩) := by
  rw [resolveClause]
  cases bytes.flags.isTyped <;> cases bytes.flags.isFilter <;> rfl

/-- What each part of a resolved clause comes from. -/
theorem resolveClause_eq_ok {bytes : ByteClause} {codeSize : Nat}
    (resolved : resolveClause resolver code codeSize bytes = .ok clause) :
    clause.flags = bytes.flags ∧
      (if bytes.flags.isTyped then some <$> resolver.type ⟨UInt32.ofNat bytes.extra⟩ else pure none) =
        .ok clause.catchType ∧
      (if bytes.flags.isFilter then some <$> resolveClause.start code codeSize bytes.extra else pure none) =
        .ok clause.filterStart ∧
      resolveClause.start code codeSize bytes.tryOffset = .ok clause.tryStart ∧
      resolveClause.stop code codeSize bytes.tryOffset bytes.tryLength = .ok clause.tryEnd ∧
      resolveClause.start code codeSize bytes.handlerOffset = .ok clause.handlerStart ∧
      resolveClause.stop code codeSize bytes.handlerOffset bytes.handlerLength = .ok clause.handlerEnd := by
  rw [resolveClause_eq] at resolved
  rcases Fallible.bind_eq_ok_iff.mp resolved with ⟨catchType, catches, resolved⟩
  rcases Fallible.bind_eq_ok_iff.mp resolved with ⟨filterStart, filters, resolved⟩
  rcases Fallible.bind_eq_ok_iff.mp resolved with ⟨tryStart, tryBegins, resolved⟩
  rcases Fallible.bind_eq_ok_iff.mp resolved with ⟨tryEnd, tryStops, resolved⟩
  rcases Fallible.bind_eq_ok_iff.mp resolved with ⟨handlerStart, handlerBegins, resolved⟩
  rcases Fallible.bind_eq_ok_iff.mp resolved with ⟨handlerEnd, handlerStops, made⟩
  cases made
  exact ⟨rfl, catches, filters, tryBegins, tryStops, handlerBegins, handlerStops⟩

theorem resolveClause_toBytesOf (undoes : resolver.Undoes emitter settled) (placed : Code.IsPlaced code)
    (small : Code.size code < 2 ^ 32) (canonical : clause.IsCanonical)
    (inside : clause.isInside code.length = true) {bytes : ByteClause}
    (made : toBytesOf emitter (Code.offsetsFrom 0 code).toArray clause before = (.ok bytes, after))
    (settles : settled after) :
    settled before ∧ (∀ part ∈ bytes.parts, part < 2 ^ 32) ∧
      resolveClause resolver code (Code.size code) bytes.truncated = clause.readBack resolver := by
  simp only [Clause.isInside, Bool.and_eq_true, decide_eq_true_eq, Option.all_eq_true] at inside
  rcases inside with ⟨⟨⟨⟨tryOrder, tryInside⟩, handlerOrder⟩, handlerInside⟩, filterInside⟩
  rcases Emission.bind_eq_ok_iff.mp made with ⟨extra, between, first, more⟩
  rcases Emission.pure_eq_ok_iff.mp more with ⟨rfl, rfl⟩
  rcases resolve_extraOf undoes placed small canonical filterInside first settles with
    ⟨settledBefore, extraSmall, catches, filters⟩
  have tryBegins : clause.tryStart ≤ code.length := by omega
  have handlerBegins : clause.handlerStart ≤ code.length := by omega
  simp only [Code.getD_offsetsFrom tryBegins, Code.getD_offsetsFrom tryInside, Code.getD_offsetsFrom handlerBegins,
    Code.getD_offsetsFrom handlerInside]
  refine ⟨settledBefore, ?_, ?_⟩
  · have flags := clause.flags.toNat_lt
    have tryStart := Code.size_take_le code clause.tryStart
    have tryEnd := Code.size_take_le code clause.tryEnd
    have handlerStart := Code.size_take_le code clause.handlerStart
    have handlerEnd := Code.size_take_le code clause.handlerEnd
    simp only [ByteClause.parts, List.forall_mem_cons, List.not_mem_nil, false_implies, implies_true, and_true]
    refine ⟨?_, ?_, ?_, ?_, ?_, extraSmall⟩
    all_goals omega
  · rw [← clause.flags.isFilter_truncated] at filters
    rw [resolveClause_eq, Clause.readBack]
    cases readBack : clause.catchTypeReadBack resolver with
    | error error => exact Fallible.bind_eq_error_iff.mpr (.inl (catches.trans readBack))
    | ok catchType =>
        refine Fallible.bind_eq_ok_iff.mpr ⟨_, catches.trans readBack, ?_⟩
        refine Fallible.bind_eq_ok_iff.mpr ⟨_, filters, ?_⟩
        refine Fallible.bind_eq_ok_iff.mpr ⟨_, start_size_take placed tryBegins, ?_⟩
        refine Fallible.bind_eq_ok_iff.mpr ⟨_, stop_size_take placed small tryOrder tryInside, ?_⟩
        refine Fallible.bind_eq_ok_iff.mpr ⟨_, start_size_take placed handlerBegins, ?_⟩
        exact Fallible.bind_eq_ok_iff.mpr ⟨_, stop_size_take placed small handlerOrder handlerInside, rfl⟩

theorem resolveClauses_toBytesOf (undoes : resolver.Undoes emitter settled) (placed : Code.IsPlaced code)
    (small : Code.size code < 2 ^ 32) {clauses : List Clause}
    (canonical : ∀ clause ∈ clauses, clause.IsCanonical)
    (inside : ∀ clause ∈ clauses, clause.isInside code.length = true) {byteClauses : List ByteClause}
    (made : clauses.mapM (toBytesOf emitter (Code.offsetsFrom 0 code).toArray) before = (.ok byteClauses, after))
    (settles : settled after) :
    settled before ∧ (∀ bytes ∈ byteClauses, ∀ part ∈ bytes.parts, part < 2 ^ 32) ∧
      (byteClauses.map ByteClause.truncated).mapM (resolveClause resolver code (Code.size code)) =
        clauses.mapM (Clause.readBack resolver) := by
  induction clauses generalizing before byteClauses with
  | nil =>
      rcases Emission.pure_eq_ok_iff.mp made with ⟨rfl, rfl⟩
      exact ⟨settles, by simp, rfl⟩
  | cons clause clauses ih =>
      rw [List.forall_mem_cons] at canonical inside
      rw [List.mapM_cons] at made
      rcases Emission.bind_eq_ok_iff.mp made with ⟨bytes, between, first, more⟩
      rcases Emission.bind_eq_ok_iff.mp more with ⟨others, last, rest, same⟩
      rcases Emission.pure_eq_ok_iff.mp same with ⟨rfl, rfl⟩
      rcases ih canonical.2 inside.2 rest with ⟨settledBetween, othersSmall, othersResolve⟩
      rcases resolveClause_toBytesOf undoes placed small canonical.1 inside.1 first settledBetween with
        ⟨settledBefore, partsSmall, resolves⟩
      refine ⟨settledBefore, List.forall_mem_cons.mpr ⟨partsSmall, othersSmall⟩, ?_⟩
      rw [List.map_cons, List.mapM_cons, List.mapM_cons, resolves, othersResolve]

end Regions

end Section

end CilRelink
