import CilRelink.Body.Format
import CilRelink.Proofs.Code.Canonical
import CilRelink.Proofs.Scope.History

/-!
# What encoding asks for

Encoding changes the state of an emitter only by asking it for tokens, and it asks for no others than those of the
operands that stand in the body and of the types that its clauses handle. This holds wherever encoding ends, so also
if it fails. A scope that is asked for tokens keeps all it has recorded, and records nothing but what it is asked for.
-/

namespace CilRelink

variable {State α β : Type}

/-- The states that an emitter comes to if it is asked for tokens of wanted operands, one after the other. -/
inductive Emitter.Reaches (emitter : Emitter State) (wanted : Operand → Prop) (before : State) : State → Prop where
  | refl : Reaches emitter wanted before before
  | ask {state : State} {operand : Operand} {action : Emission State Token}
      (reached : Reaches emitter wanted before state) (isWanted : wanted operand)
      (asked : emitter.token? operand = some action) : Reaches emitter wanted before (action state).2

namespace Emitter.Reaches

variable {emitter : Emitter State} {wanted more : Operand → Prop} {first second third : State}

theorem trans (earlier : emitter.Reaches wanted first second) (later : emitter.Reaches wanted second third) :
    emitter.Reaches wanted first third := by
  induction later with
  | refl => exact earlier
  | ask _ isWanted asked ih => exact .ask ih isWanted asked

theorem mono (includes : ∀ operand, wanted operand → more operand) (reached : emitter.Reaches wanted first second) :
    emitter.Reaches more first second := by
  induction reached with
  | refl => exact .refl
  | ask _ isWanted asked ih => exact .ask ih (includes _ isWanted) asked

end Emitter.Reaches

/-- Whether all that an action does to the state is to ask for tokens of wanted operands, even if it fails. -/
def Emission.Asks (emitter : Emitter State) (wanted : Operand → Prop) (action : Emission State α) : Prop :=
  ∀ before, emitter.Reaches wanted before (action before).2

section Asking

variable {emitter : Emitter State} {wanted : Operand → Prop}

namespace Emission.Asks

theorem pure (value : α) : Asks emitter wanted (Pure.pure value : Emission State α) := fun _ => .refl

theorem ofExcept (outcome : Except Error α) : Asks emitter wanted (Emission.ofExcept outcome) := fun _ => .refl

theorem throw (error : Error) : Asks emitter wanted (MonadExcept.throw error : Emission State α) := fun _ => .refl

theorem bind {first : Emission State α} {next : α → Emission State β} (asksFirst : Asks emitter wanted first)
    (asksNext : ∀ value, Asks emitter wanted (next value)) : Asks emitter wanted (first >>= next) := by
  intro before
  have reached := asksFirst before
  rw [bind_apply]
  rcases outcome : first before with ⟨result, between⟩
  rw [outcome] at reached
  cases result with
  | error error => exact reached
  | ok value => exact reached.trans (asksNext value between)

theorem map {first : Emission State α} (change : α → β) (asksFirst : Asks emitter wanted first) :
    Asks emitter wanted (change <$> first) := by
  rw [← bind_pure_comp]
  exact asksFirst.bind fun value => .pure (change value)

theorem mapM {step : α → Emission State β} {list : List α}
    (each : ∀ element ∈ list, Asks emitter wanted (step element)) : Asks emitter wanted (list.mapM step) := by
  induction list with
  | nil => exact pure []
  | cons element list ih =>
      rw [List.forall_mem_cons] at each
      rw [List.mapM_cons]
      refine each.1.bind fun first => ?_
      exact (ih each.2).bind fun others => .pure (first :: others)

end Emission.Asks

/-! ## Encoding -/

theorem Emission.asks_token {operand : Operand} {action : Emission State Token} (isWanted : wanted operand)
    (asked : emitter.token? operand = some action) : Emission.Asks emitter wanted action :=
  fun _ => .ask .refl isWanted asked

namespace Code

theorem asks_operandBytes {instruction : Instruction} (isWanted : wanted instruction.operand) (offsets : Array Nat)
    (position start : Nat) :
    Emission.Asks emitter wanted (operandBytes emitter offsets position start instruction) := by
  cases asked : emitter.token? instruction.operand with
  | some action =>
      rw [operandBytes_of_token? asked]
      exact (Emission.asks_token isWanted asked).map _
  | none =>
      unfold operandBytes
      cases operand : instruction.operand with
      | none | immediate value | localVariable index | argument index => exact .pure _
      | target target => exact .ofExcept _
      | targets targets => exact .ofExcept _
      | _ =>
          rw [operand] at asked
          cases asked

theorem asks_encodeFrom {instructions : List Instruction}
    (areWanted : ∀ instruction ∈ instructions, wanted instruction.operand) (offsets : Array Nat)
    (position start : Nat) : Emission.Asks emitter wanted (encodeFrom emitter offsets position start instructions) := by
  induction instructions generalizing position start with
  | nil => exact .pure _
  | cons instruction instructions ih =>
      rw [List.forall_mem_cons] at areWanted
      rw [encodeFrom]
      have operandBytes : Emission.Asks emitter wanted _ := asks_operandBytes areWanted.1 offsets position start
      have others := ih areWanted.2 (position + 1) (start + instruction.size)
      have rest := operandBytes.bind fun operand => others.bind fun others =>
        .pure (instruction.opcode.bytes ++ operand ++ others)
      split
      · exact (Emission.Asks.throw _).bind fun _ => rest
      · exact rest

end Code

namespace Body

/-- The operands of the body, and the types that its clauses handle as operands. -/
def Names (body : Body) (operand : Operand) : Prop :=
  (∃ instruction ∈ body.instructions, instruction.operand = operand) ∨
    ∃ clause ∈ body.clauses, ∃ type ∈ clause.catchType, .type type = operand

theorem asks_toBytesOf {body : Body} {clause : Clause} (clauseMem : clause ∈ body.clauses) (offsets : Array Nat) :
    Emission.Asks emitter body.Names (Section.toBytesOf emitter offsets clause) := by
  have extra : Emission.Asks emitter body.Names (Section.extraOf emitter offsets clause) := by
    unfold Section.extraOf
    split
    · exact .pure _
    · split
      · split
        · rename_i type catchType
          have named : body.Names (.type type) := .inr ⟨clause, clauseMem, type, catchType, rfl⟩
          exact (Emission.asks_token named rfl).map _
        · exact .throw _
      · exact .pure _
  exact extra.bind fun _ => .pure _

theorem asks_encodeClauses (body : Body) : Emission.Asks emitter body.Names (body.encodeClauses emitter) := by
  refine (Emission.Asks.ofExcept _).bind fun offsets => ?_
  refine (Emission.Asks.mapM fun clause clauseMem => asks_toBytesOf clauseMem offsets.toArray).bind fun clauses => ?_
  exact .ofExcept _

/-- Encoding a body asks for nothing but tokens of what the body names. -/
theorem asks_encode (body : Body) : Emission.Asks emitter body.Names (body.encode emitter) := by
  have named : ∀ instruction ∈ body.instructions, body.Names instruction.operand :=
    fun instruction instructionMem => .inl ⟨instruction, instructionMem, rfl⟩
  refine (Emission.Asks.ofExcept _).bind fun _ => ?_
  refine ((Emission.Asks.ofExcept _).bind fun _ => Code.asks_encodeFrom named _ _ _).bind fun code => ?_
  split
  · exact .pure _
  · split
    · exact .pure _
    · exact (asks_encodeClauses body).bind fun _ => .pure _

end Body

end Asking

/-! ## Scopes that are asked -/

/-- Whether a dictionary has kept all entries, and those that it has gained are welcome. -/
structure Dictionary.GrownBy {κ α : Type} [DecidableEq κ] (welcome : κ → α → Prop)
    (before after : Dictionary κ α) : Prop where
  keeps {key : κ} {value : α} (known : before.find? key = some value) : after.find? key = some value
  gains {key : κ} {value : α} (found : after.find? key = some value) :
    before.find? key = some value ∨ welcome key value

namespace Dictionary.GrownBy

variable {κ α : Type} [DecidableEq κ] {welcome : κ → α → Prop} {first second third : Dictionary κ α}

theorem refl (dictionary : Dictionary κ α) : dictionary.GrownBy welcome dictionary := ⟨id, .inl⟩

theorem trans (earlier : first.GrownBy welcome second) (later : second.GrownBy welcome third) :
    first.GrownBy welcome third where
  keeps known := later.keeps (earlier.keeps known)
  gains found := by
    rcases later.gains found with known | isWelcome
    · exact earlier.gains known
    · exact .inr isWelcome

variable {dictionary : Dictionary κ α} {key : κ} {value : α}

theorem insert (fresh : dictionary.find? key = none) (isWelcome : welcome key value) :
    dictionary.GrownBy welcome (dictionary.insert key value) where
  keeps known := find?_insert_of_find?_eq_none fresh known
  gains found := by
    rcases eq_or_of_find?_insert found with ⟨rfl, rfl⟩ | known
    · exact .inr isWelcome
    · exact .inl known

theorem insertNew (isWelcome : welcome key value) : dictionary.GrownBy welcome (dictionary.insertNew key value) where
  keeps {other otherValue} known := by
    rw [find?_insertNew]
    split
    · rename_i same
      subst same
      rw [known, Option.getD_some]
    · exact known
  gains found := by
    rcases eq_or_of_find?_insertNew found with ⟨rfl, rfl⟩ | known
    · exact .inr isWelcome
    · exact .inl known

end Dictionary.GrownBy

/-- The symbol that a token is asked for if the operand is encoded. -/
def Operand.symbol? : Operand → Option Symbol
  | .type reference => some (.type reference)
  | .field reference => some (.field reference)
  | .method reference => some (.method reference)
  | .symbol reference => some reference
  | _ => Option.none

/-- The string that a token is asked for if the operand is encoded. -/
def Operand.string? : Operand → Option String
  | .string value => some value
  | _ => Option.none

namespace Scope

/-- Whether a scope still knows all that it knew, in both directions, and what it has come to know is the symbols and
the strings of wanted operands. -/
structure GrownBy (wanted : Operand → Prop) (before after : Scope) : Prop where
  symbols : before.symbols.GrownBy (fun _ symbol => ∃ operand, wanted operand ∧ operand.symbol? = some symbol)
    after.symbols
  strings : before.strings.GrownBy (fun _ string => ∃ operand, wanted operand ∧ operand.string? = some string)
    after.strings
  symbolTokens : before.symbolTokens.GrownBy
    (fun symbol _ => ∃ operand, wanted operand ∧ operand.symbol? = some symbol) after.symbolTokens
  stringTokens : before.stringTokens.GrownBy
    (fun string _ => ∃ operand, wanted operand ∧ operand.string? = some string) after.stringTokens

variable {wanted : Operand → Prop} {first second third : Scope} {operand : Operand}

theorem GrownBy.refl (scope : Scope) : scope.GrownBy wanted scope := ⟨.refl _, .refl _, .refl _, .refl _⟩

theorem GrownBy.trans (earlier : first.GrownBy wanted second) (later : second.GrownBy wanted third) :
    first.GrownBy wanted third where
  symbols := earlier.symbols.trans later.symbols
  strings := earlier.strings.trans later.strings
  symbolTokens := earlier.symbolTokens.trans later.symbolTokens
  stringTokens := earlier.stringTokens.trans later.stringTokens

theorem grownBy_intern {symbol : Symbol} (isWanted : wanted operand) (isSymbol : operand.symbol? = some symbol)
    (scope : Scope) : scope.GrownBy wanted (scope.intern symbol).2 := by
  unfold intern
  cases known : scope.symbolTokens.find? symbol with
  | some token => exact .refl scope
  | none =>
      exact ⟨.insertNew ⟨operand, isWanted, isSymbol⟩, .refl _, .insert known ⟨operand, isWanted, isSymbol⟩, .refl _⟩

theorem grownBy_internString {string : String} (isWanted : wanted operand) (isString : operand.string? = some string)
    (scope : Scope) : scope.GrownBy wanted (scope.internString string).2 := by
  unfold internString
  cases known : scope.stringTokens.find? string with
  | some token => exact .refl scope
  | none =>
      exact ⟨.refl _, .insertNew ⟨operand, isWanted, isString⟩, .refl _, .insert known ⟨operand, isWanted, isString⟩⟩

/-- A scope that is asked for tokens grows by what it is asked for. -/
theorem grownBy_of_reaches (reached : emitter.Reaches wanted first second) : first.GrownBy wanted second := by
  induction reached with
  | refl => exact .refl first
  | @ask scope operand action _ isWanted asked ih =>
      refine ih.trans ?_
      cases operand with
      | type reference | field reference | method reference =>
          cases asked
          exact grownBy_intern isWanted rfl scope
      | symbol reference =>
          cases asked
          rw [emitter_symbol]
          exact grownBy_intern isWanted rfl scope
      | string value =>
          cases asked
          exact grownBy_internString isWanted rfl scope
      | signature token =>
          cases asked
          exact .refl scope
      | _ => cases asked

end Scope

end CilRelink
