import Mathlib.Tactic.IntervalCases
import CilRelink.Instruction.ConstantLoad
import CilRelink.Proofs.Code.Stability
import CilRelink.Proofs.Scope.History

/-!
# Loads of constants

What a load of a constant pushes is told by the standard, and what a load takes in bytes by its opcode. So the loads
of one constant can be compared. For an integer of 32 bits there are up to three of them: one byte for the integers
that have an opcode of their own, two for those that a byte with a sign can tell, and five for any.
-/

namespace CilRelink

/-- What a load leaves on the stack. There, truth values are integers. -/
inductive Constant where
  | null
  | int32 (value : Int32)
  | int64 (value : Int64)
  | float32 (bits : UInt32)
  | float64 (bits : UInt64)
  | string (value : String)
deriving DecidableEq

/-- The constant that an opcode pushes with an operand, if it loads one. A byte is extended with its sign. -/
def Opcode.constant? : Opcode → Operand → Option Constant
  | .ldnull, .none => some .null
  | .ldcI4M1, .none => some (.int32 (-1))
  | .ldcI4_0, .none => some (.int32 0)
  | .ldcI4_1, .none => some (.int32 1)
  | .ldcI4_2, .none => some (.int32 2)
  | .ldcI4_3, .none => some (.int32 3)
  | .ldcI4_4, .none => some (.int32 4)
  | .ldcI4_5, .none => some (.int32 5)
  | .ldcI4_6, .none => some (.int32 6)
  | .ldcI4_7, .none => some (.int32 7)
  | .ldcI4_8, .none => some (.int32 8)
  | .ldcI4S, .immediate (.int8 value) => some (.int32 value.toInt32)
  | .ldcI4, .immediate (.int32 value) => some (.int32 value)
  | .ldcI8, .immediate (.int64 value) => some (.int64 value)
  | .ldcR4, .immediate (.float32 bits) => some (.float32 bits)
  | .ldcR8, .immediate (.float64 bits) => some (.float64 bits)
  | .ldstr, .string value => some (.string value)
  | _, _ => none

/-- The constant that an instruction pushes, if it is a load of one. -/
def Instruction.constant? (instruction : Instruction) : Option Constant :=
  instruction.opcode.constant? instruction.operand

/-- The constant that stands for a value on the stack, if there is one. -/
def HostValue.constant? : HostValue → Option Constant
  | .null => some .null
  | .boolean value => some (.int32 (if value then 1 else 0))
  | .int32 value => some (.int32 value)
  | .int64 value => some (.int64 value)
  | .float32 bits => some (.float32 bits)
  | .float64 bits => some (.float64 bits)
  | .string value => some (.string value)
  | _ => none

/-- The number of bytes that no load of the constant goes below. -/
def Constant.leastSize : Constant → Nat
  | .null => 1
  | .int32 value =>
    if -1 ≤ value.toInt ∧ value.toInt ≤ 8 then 1
    else if -128 ≤ value.toInt ∧ value.toInt ≤ 127 then 2
    else 5
  | .int64 _ | .float64 _ => 9
  | .float32 _ | .string _ => 5

namespace Instruction

variable {instruction : Instruction} {constant : Constant}

theorem isWellFormed_of_constant? (pushes : instruction.constant? = some constant) :
    instruction.isWellFormed = true := by
  rcases instruction with ⟨offset, opcode, operand⟩
  simp only [constant?, Opcode.constant?] at pushes
  split at pushes
  all_goals cases pushes <;> rfl

theorem size_le_of_constant? (pushes : instruction.constant? = some constant) : instruction.size ≤ 9 := by
  rcases instruction with ⟨offset, opcode, operand⟩
  simp only [constant?, Opcode.constant?] at pushes
  split at pushes
  all_goals cases pushes <;> exact Nat.le_of_ble_eq_true rfl

/-- A byte tells the integers that it is extended to, and an opcode of its own ten of them. -/
theorem leastSize_le_size (pushes : instruction.constant? = some constant) : constant.leastSize ≤ instruction.size := by
  rcases instruction with ⟨offset, opcode, operand⟩
  simp only [constant?, Opcode.constant?] at pushes
  split at pushes
  case h_12 value =>
    cases pushes
    have low := value.le_toInt
    have high := value.toInt_lt
    have small : -128 ≤ value.toInt32.toInt ∧ value.toInt32.toInt ≤ 127 := by
      rw [Int8.toInt_toInt32]
      omega
    change Constant.leastSize _ ≤ 2
    simp only [Constant.leastSize, if_pos small]
    split <;> decide
  case h_13 value =>
    cases pushes
    change Constant.leastSize _ ≤ 5
    simp only [Constant.leastSize]
    split
    · decide
    · split <;> decide
  all_goals cases pushes <;> exact Nat.le_refl _

/-! ## Integers of 32 bits -/

/-- The integers with an opcode of their own are loaded by it. -/
theorem loadInt32_of_own {value : Int32} (low : -1 ≤ value.toInt) (high : value.toInt ≤ 8) :
    (loadInt32 value).constant? = some (.int32 value) ∧ (loadInt32 value).size = 1 := by
  have known : value = Int32.ofInt value.toInt := (Int32.ofInt_toInt value).symm
  generalize value.toInt = number at low high known
  subst known
  interval_cases number
  all_goals exact ⟨by decide +kernel, by decide +kernel⟩

/-- All other integers are loaded from a byte if they fit one. -/
theorem loadInt32_of_not_own {value : Int32} (other : ¬ (-1 ≤ value.toInt ∧ value.toInt ≤ 8)) :
    loadInt32 value =
      if -128 ≤ value.toInt ∧ value.toInt ≤ 127 then
        .unplaced .ldcI4S (.immediate (.int8 (Int8.ofInt value.toInt)))
      else .unplaced .ldcI4 (.immediate (.int32 value)) := by
  have different : ∀ own : Int32, -1 ≤ own.toInt ∧ own.toInt ≤ 8 → value ≠ own := by
    rintro own inside rfl
    exact other inside
  rw [loadInt32]
  iterate 10 rw [if_neg (different _ (by decide))]

theorem pushes_loadInt32 (value : Int32) :
    (loadInt32 value).constant? = some (.int32 value) ∧
      (loadInt32 value).size = (Constant.int32 value).leastSize := by
  simp only [Constant.leastSize]
  by_cases own : -1 ≤ value.toInt ∧ value.toInt ≤ 8
  · rw [if_pos own]
    exact loadInt32_of_own own.1 own.2
  · rw [if_neg own, loadInt32_of_not_own own]
    by_cases short : -128 ≤ value.toInt ∧ value.toInt ≤ 127
    · rw [if_pos short, if_pos short]
      refine ⟨?_, rfl⟩
      -- the byte is extended to the integer that it was made from
      have back : (Int8.ofInt value.toInt).toInt32 = value := by
        apply Int32.toInt_inj.mp
        rw [Int8.toInt_toInt32, Int8.toInt_ofInt_of_le (by omega) (by omega)]
      simp only [constant?, unplaced, Opcode.constant?, back]
    · rw [if_neg short, if_neg short]
      exact ⟨rfl, rfl⟩

end Instruction

namespace HostValue

variable {value : HostValue} {load : Instruction}

theorem offset_of_load? (loaded : value.load? = some load) : load.offset = 0 := by
  cases value with
  | boolean value => cases value <;> cases loaded <;> rfl
  | int32 value =>
      cases loaded
      rw [Instruction.loadInt32]
      iterate 11 rw [apply_ite Instruction.offset]
      simp only [Instruction.unplaced, ite_self]
  | null | int64 | float32 | float64 | string =>
      cases loaded
      rfl
  | _ => cases loaded

theorem pushes_of_load? (loaded : value.load? = some load) :
    ∃ constant, value.constant? = some constant ∧ load.constant? = some constant ∧ load.size = constant.leastSize := by
  cases value with
  | boolean value => cases value <;> cases loaded <;> exact ⟨_, rfl, rfl, rfl⟩
  | int32 value =>
      cases loaded
      exact ⟨_, rfl, Instruction.pushes_loadInt32 value⟩
  | null | int64 | float32 | float64 | string =>
      cases loaded
      exact ⟨_, rfl, rfl, rfl⟩
  | _ => cases loaded

end HostValue

/-! ## Loads in code -/

section Codec

variable {State : Type} {emitter : Emitter State} {resolver : Resolver} {before after : State}

/-- One instruction alone comes back if its operand does. -/
theorem Code.roundTrip_single {instruction : Instruction} {operand : List UInt8} {raw : Code.RawOperand}
    (first : instruction.offset = 0) (small : instruction.size < 2 ^ 32) (wellFormed : instruction.isWellFormed = true)
    (emitted : Code.operandBytes emitter (Code.offsetsFrom 0 [instruction]).toArray 0 0 instruction before =
      (.ok operand, after))
    (cuts : Code.cutOperand 0 instruction.opcode.operandKind (operand ++ []) = .ok (raw, instruction.operandSize, []))
    (standsFor : Code.RawOperand.StandsFor resolver [instruction] instruction.size instruction.opcode.operandKind raw
      instruction.operand) :
    ∃ bytes, Code.encode emitter [instruction] before = (.ok bytes, after) ∧ bytes.length = instruction.size ∧
      Code.decode resolver bytes = .ok [instruction] := by
  have laidOut : Code.offsets [instruction] = .ok (Code.offsetsFrom 0 [instruction]) :=
    Code.offsets_eq_ok_iff.mpr ⟨by simpa using small, rfl⟩
  have cut : Code.cut 0 (instruction.opcode.bytes ++ operand ++ []) =
      .ok [⟨0, 0 + instruction.opcode.size + instruction.operandSize, instruction.opcode, raw⟩] := by
    rw [Code.cut_of_cutInstruction (Code.cutInstruction_append cuts), Code.cut]
    rfl
  have next : 0 + instruction.opcode.size + instruction.operandSize = instruction.size := by
    rw [Nat.zero_add, Instruction.size]
  have related : List.Forall₂ (Code.RawInstruction.StandsFor resolver [instruction])
      [⟨0, 0 + instruction.opcode.size + instruction.operandSize, instruction.opcode, raw⟩] [instruction] := by
    rw [next]
    exact .cons ⟨first.symm, by rw [first, Nat.zero_add], rfl, standsFor⟩ .nil
  have length := Code.length_of_cutOperand cuts
  refine ⟨instruction.opcode.bytes ++ operand ++ [], ?_, ?_, ?_⟩
  · refine Emission.bind_eq_ok_iff.mpr ⟨_, before, Emission.ofExcept_eq_ok_iff.mpr ⟨laidOut, rfl⟩, ?_⟩
    rw [Code.encodeFrom, wellFormed, Bool.not_true, if_neg (by decide)]
    exact Emission.bind_eq_ok_iff.mpr ⟨_, after, emitted, rfl⟩
  · rw [List.append_nil, List.length_nil, Nat.add_zero] at length
    rw [List.append_nil, List.length_append, Opcode.length_bytes, length, Instruction.size]
  · refine Fallible.bind_eq_ok_iff.mpr ⟨_, cut, Fallible.mapM_eq_ok_iff.mpr ?_⟩
    exact related.imp fun _ _ cutOff => Code.resolve_eq_ok related cutOff

/-- Whether the constant can be named in code between two states: a string is emitted as a token under which the
resolver finds it, and nothing else needs a name. -/
def Constant.Named (emitter : Emitter State) (resolver : Resolver) (before after : State) : Constant → Prop
  | .string text => ∃ token, emitter.string text before = (.ok token, after) ∧ resolver.string token = .ok text
  | _ => after = before

/-- Every load that begins the code comes back out of it. -/
theorem Instruction.roundTrip_of_constant? {load : Instruction} {constant : Constant}
    (pushes : load.constant? = some constant) (first : load.offset = 0)
    (named : constant.Named emitter resolver before after) :
    ∃ bytes, Code.encode emitter [load] before = (.ok bytes, after) ∧ bytes.length = load.size ∧
      Code.decode resolver bytes = .ok [load] := by
  have wellFormed := isWellFormed_of_constant? pushes
  have small : load.size < 2 ^ 32 := Nat.lt_of_le_of_lt (size_le_of_constant? pushes) (by decide)
  rcases load with ⟨offset, opcode, operand⟩
  simp only [constant?, Opcode.constant?] at pushes
  split at pushes
  case h_17 text =>
    cases pushes
    rcases named with ⟨token, emitted, resolves⟩
    have cuts := Code.cutOperand_token (by decide : OperandKind.string ∈ Code.tokenKinds) 0 token []
    refine Code.roundTrip_single first small wellFormed ?_ cuts.2 (.token ?_)
    · exact Emission.map_eq_ok_iff.mpr ⟨token, emitted, rfl⟩
    · exact Fallible.map_eq_ok_iff.mpr ⟨text, resolves, rfl⟩
  case h_12 | h_13 | h_14 | h_15 | h_16 =>
    cases pushes
    cases named
    rcases Code.cutOperand_immediate wellFormed 0 [] with ⟨width, fixed, cuts⟩
    cases fixed
    exact Code.roundTrip_single first small wellFormed rfl cuts (.plain _)
  all_goals
    cases pushes <;> cases named <;> exact Code.roundTrip_single first small wellFormed rfl rfl (.plain _)

end Codec

/-- A scope names every constant, as long as it has a row for a string. -/
theorem Constant.exists_named {scope : Scope} {constant : Constant} (orderly : scope.Orderly)
    (room : ∀ text, constant = .string text → (scope.internString text).2.rows .userString < Token.rowLimit) :
    ∃ after : Scope, constant.Named Scope.emitter after.resolver scope after := by
  cases constant with
  | string text =>
      have settled := (orderly.internString (room text rfl)).coherent.settled
      have known := (Scope.SettledIn.of_internString rfl settled).1
      exact ⟨_, _, rfl, Scope.resolveString_eq_ok_iff.mpr known⟩
  | _ => exact ⟨scope, rfl⟩

namespace HostValue

/-- Exactly the values of seven kinds have a load. It is an instruction like any other, pushes the value, does so in
the fewest bytes, and is the same after it was encoded and decoded: with whatever emitter and resolver, if these agree
on the string that is loaded, which an orderly scope does that has a row for it. -/
theorem load?_pushes_in_fewest_bytes (value : HostValue) :
    (value.load?.isSome = true ↔ value.kindName ∈ ["null", "bool", "int", "long", "float", "double", "string"]) ∧
      ∀ load, value.load? = some load →
        ∃ constant, value.constant? = some constant ∧ load.isWellFormed = true ∧ load.constant? = some constant ∧
          (∀ other : Instruction, other.constant? = some constant → load.size ≤ other.size) ∧
          (∀ {State : Type} (emitter : Emitter State) (resolver : Resolver) (before after : State),
            constant.Named emitter resolver before after →
              ∃ bytes, Code.encode emitter [load] before = (.ok bytes, after) ∧ bytes.length = load.size ∧
                Code.decode resolver bytes = .ok [load]) ∧
          ∀ scope : Scope, scope.Orderly →
            (∀ text, constant = .string text → (scope.internString text).2.rows .userString < Token.rowLimit) →
              ∃ bytes after, Code.encode Scope.emitter [load] scope = (.ok bytes, after) ∧
                Code.decode after.resolver bytes = .ok [load] := by
  refine ⟨?_, ?_⟩
  · cases value with
    | boolean value => cases value <;> simp [load?, kindName]
    | _ => simp [load?, kindName]
  · intro load loaded
    rcases pushes_of_load? loaded with ⟨constant, stands, pushes, least⟩
    have first := offset_of_load? loaded
    refine ⟨constant, stands, Instruction.isWellFormed_of_constant? pushes, pushes, ?_, ?_, ?_⟩
    · intro other otherPushes
      rw [least]
      exact Instruction.leastSize_le_size otherPushes
    · intro State emitter resolver before after named
      exact Instruction.roundTrip_of_constant? pushes first named
    · intro scope orderly room
      rcases Constant.exists_named orderly room with ⟨after, named⟩
      rcases Instruction.roundTrip_of_constant? pushes first named with ⟨bytes, encoded, _, decoded⟩
      exact ⟨bytes, after, encoded, decoded⟩

/-- The lowest integer that a byte tells, and a string in a scope that has not met it. -/
theorem load?_pushes_lowest_byte_and_string :
    (int32 (-128)).load? = some (.unplaced .ldcI4S (.immediate (.int8 (-128)))) ∧
      (∀ other : Instruction, other.constant? = some (.int32 (-128)) → 2 ≤ other.size) ∧
      (string "gate").load? = some (.unplaced .ldstr (.string "gate")) ∧
      Scope.empty.Orderly ∧ (Scope.empty.internString "gate").2.rows .userString < Token.rowLimit ∧
      ∃ bytes after, Code.encode Scope.emitter [.unplaced .ldstr (.string "gate")] Scope.empty = (.ok bytes, after) ∧
        Code.decode after.resolver bytes = .ok [.unplaced .ldstr (.string "gate")] := by
  have room : (Scope.empty.internString "gate").2.rows .userString < Token.rowLimit := by decide
  rcases (load?_pushes_in_fewest_bytes (int32 (-128))).2 _ rfl with ⟨_, stands, _, _, least, _, _⟩
  rcases (load?_pushes_in_fewest_bytes (string "gate")).2 _ rfl with ⟨_, standsString, _, _, _, _, inScope⟩
  cases stands
  cases standsString
  refine ⟨by decide, least, rfl, .empty, room, inScope Scope.empty .empty ?_⟩
  intro text same
  cases same
  exact room

end HostValue

end CilRelink
