import CilRelink.Body.Format
import CilRelink.Proofs.Fallible
import CilRelink.Proofs.Scope.History

/-!
# What encoding does to the state

Encoding changes the state of the emitter only by asking it for tokens. So whatever each request preserves, encoding
preserves. A scope stays orderly in this way, up to the point where a table runs out of rows.
-/

namespace CilRelink

section Preservation

variable {State α β : Type} {holds : State → Prop}

/-- Whether a property of the state holds after an action that comes to a result, if it holds before. -/
def Emission.Preserves (holds : State → Prop) (action : Emission State α) : Prop :=
  ∀ before value after, action before = (.ok value, after) → holds before → holds after

namespace Emission.Preserves

theorem pure (value : α) : Preserves holds (Pure.pure value : Emission State α) := by
  intro before result after made holdsBefore
  rcases pure_eq_ok_iff.mp made with ⟨_, rfl⟩
  exact holdsBefore

theorem ofExcept (outcome : Except Error α) : Preserves holds (Emission.ofExcept outcome) := by
  intro before result after made holdsBefore
  rcases ofExcept_eq_ok_iff.mp made with ⟨_, rfl⟩
  exact holdsBefore

theorem throw (error : Error) : Preserves holds (MonadExcept.throw error : Emission State α) := by
  intro before result after made
  exact absurd made throw_ne_ok

theorem bind {first : Emission State α} {next : α → Emission State β} (holdsFirst : Preserves holds first)
    (holdsNext : ∀ value, Preserves holds (next value)) : Preserves holds (first >>= next) := by
  intro before result after made holdsBefore
  rcases bind_eq_ok_iff.mp made with ⟨value, between, stepped, more⟩
  apply holdsNext value between result after more
  exact holdsFirst before value between stepped holdsBefore

theorem map {first : Emission State α} (change : α → β) (holdsFirst : Preserves holds first) :
    Preserves holds (change <$> first) := by
  intro before result after made holdsBefore
  rcases map_eq_ok_iff.mp made with ⟨value, stepped, _⟩
  exact holdsFirst before value after stepped holdsBefore

theorem mapM {step : α → Emission State β} (each : ∀ element, Preserves holds (step element)) (list : List α) :
    Preserves holds (list.mapM step) := by
  induction list with
  | nil => exact pure []
  | cons element list ih =>
      rw [List.mapM_cons]
      refine bind (each element) ?_
      intro first
      refine bind ih ?_
      intro others
      exact pure (first :: others)

end Emission.Preserves

/-- Whether a property of the state is preserved by every request to the emitter. -/
structure Emitter.Preserves (emitter : Emitter State) (holds : State → Prop) : Prop where
  type (reference : TypeRef) : Emission.Preserves holds (emitter.type reference)
  field (reference : FieldRef) : Emission.Preserves holds (emitter.field reference)
  method (reference : MethodRef) : Emission.Preserves holds (emitter.method reference)
  string (value : String) : Emission.Preserves holds (emitter.string value)

variable {emitter : Emitter State} (preserves : emitter.Preserves holds)
include preserves

theorem Emitter.Preserves.symbol (reference : Symbol) : Emission.Preserves holds (emitter.symbol reference) := by
  cases reference with
  | type reference => exact preserves.type reference
  | field reference => exact preserves.field reference
  | method reference => exact preserves.method reference

namespace Code

theorem preserves_operandBytes (offsets : Array Nat) (position start : Nat) (instruction : Instruction) :
    Emission.Preserves holds (operandBytes emitter offsets position start instruction) := by
  unfold operandBytes
  cases instruction.operand with
  | string value => exact (preserves.string value).map _
  | type reference => exact (preserves.type reference).map _
  | field reference => exact (preserves.field reference).map _
  | method reference => exact (preserves.method reference).map _
  | symbol reference => exact (preserves.symbol reference).map _
  | target target => exact .ofExcept _
  | targets targets => exact .ofExcept _
  | _ => exact .pure _

theorem preserves_encodeFrom (offsets : Array Nat) (position start : Nat) (instructions : List Instruction) :
    Emission.Preserves holds (encodeFrom emitter offsets position start instructions) := by
  induction instructions generalizing position start with
  | nil => exact .pure _
  | cons instruction instructions ih =>
      rw [encodeFrom]
      have operandBytes := preserves_operandBytes preserves offsets position start instruction
      have others := ih (position + 1) (start + instruction.size)
      have rest := operandBytes.bind fun operand => others.bind fun others =>
        .pure (instruction.opcode.bytes ++ operand ++ others)
      split
      · exact (Emission.Preserves.throw _).bind fun _ => rest
      · exact rest

theorem preserves_encode (instructions : List Instruction) :
    Emission.Preserves holds (encode emitter instructions) :=
  (Emission.Preserves.ofExcept _).bind fun _ => preserves_encodeFrom preserves _ _ _ _

end Code

namespace Section

theorem preserves_toBytesOf (offsets : Array Nat) (clause : Clause) :
    Emission.Preserves holds (toBytesOf emitter offsets clause) := by
  have extra : Emission.Preserves holds (extraOf emitter offsets clause) := by
    unfold extraOf
    split
    · exact .pure _
    · split
      · split
        · exact (preserves.type _).map _
        · exact .throw _
      · exact .pure _
  exact extra.bind fun _ => .pure _

end Section

namespace Body

theorem preserves_encodeClauses (body : Body) : Emission.Preserves holds (body.encodeClauses emitter) := by
  refine Emission.Preserves.bind (.ofExcept _) ?_
  intro offsets
  refine Emission.Preserves.bind (.mapM (Section.preserves_toBytesOf preserves offsets.toArray) body.clauses) ?_
  intro clauses
  exact .ofExcept _

theorem preserves_encode (body : Body) : Emission.Preserves holds (body.encode emitter) := by
  refine Emission.Preserves.bind (.ofExcept _) ?_
  intro _
  refine Emission.Preserves.bind (Code.preserves_encode preserves body.instructions) ?_
  intro code
  split
  · exact .pure _
  · split
    · exact .pure _
    · exact (preserves_encodeClauses preserves body).bind fun _ => .pure _

end Body

end Preservation

/-- A scope that is orderly, unless a table has run out of rows, stays so while it hands out tokens. -/
theorem Scope.preserves_orderly :
    emitter.Preserves fun scope => (∀ table, scope.rows table < Token.rowLimit) → scope.Orderly := by
  have interns : ∀ symbol, Emission.Preserves
      (fun scope => (∀ table, scope.rows table < Token.rowLimit) → scope.Orderly) (internAction symbol) := by
    intro symbol before token after handedOut orderly room
    cases handedOut
    have roomBefore : ∀ table, before.rows table < Token.rowLimit := by
      intro table
      exact Nat.lt_of_le_of_lt (before.rows_le_intern symbol table) (room table)
    exact (orderly roomBefore).intern (room symbol.homeTable)
  refine ⟨fun _ => interns _, fun _ => interns _, fun _ => interns _, ?_⟩
  intro string before token after handedOut orderly room
  cases handedOut
  have roomBefore : ∀ table, before.rows table < Token.rowLimit := by
    intro table
    exact Nat.lt_of_le_of_lt (before.rows_le_internString string table) (room table)
  exact (orderly roomBefore).internString (room .userString)

end CilRelink
