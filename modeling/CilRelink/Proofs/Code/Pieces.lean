import CilRelink.Proofs.Code.Length
import CilRelink.Proofs.Watched.Encode

/-!
# The pieces of encoded code

Encoding makes a piece for each instruction and puts the pieces one behind the other. A displacement is computed from
offsets, and offsets from sizes that nobody compares with what is emitted. They do agree: each piece is as long as the
size of its instruction, and so begins at the offset of its instruction and ends at the next one.
-/

namespace CilRelink

namespace Code

variable {State : Type} {emitter : Emitter State} {before after : State} {bytes piece : List UInt8}
variable {instruction : Instruction} {instructions : List Instruction} {made : List (List UInt8)}

/-- The bytes of each instruction of the code. -/
def pieces (emitter : Emitter State) (instructions : List Instruction) : Emission State (List (List UInt8)) := do
  let places ← Emission.ofExcept (offsets instructions)
  piecesFrom emitter places.toArray 0 0 instructions

/-- Encoding puts the pieces one behind the other. -/
theorem encode_eq_flatten_pieces (emitter : Emitter State) (instructions : List Instruction) :
    encode emitter instructions = List.flatten <$> pieces emitter instructions := by
  simp only [encode, pieces, encodeFrom_eq_flatten, map_bind]

/-- The piece of the instruction at `index` is made with the place where it is going to be. -/
theorem getElem?_piecesFrom {offsets : Array Nat} {position start index : Nat}
    (emitted : piecesFrom emitter offsets position start instructions before = (.ok made, after))
    (here : instructions[index]? = some instruction) :
    ∃ piece earlier later, made[index]? = some piece ∧
      instructionBytes emitter offsets (position + index) (start + size (instructions.take index)) instruction earlier =
        (.ok piece, later) := by
  induction instructions generalizing index position start before made with
  | nil => cases here
  | cons head instructions ih =>
      rcases piecesFrom_cons_eq_ok emitted with ⟨piece, rest, between, rfl, first, others⟩
      cases index with
      | zero =>
          cases here
          exact ⟨piece, before, between, rfl, first⟩
      | succ index =>
          rcases ih others here with ⟨piece, earlier, later, found, own⟩
          refine ⟨piece, earlier, later, found, ?_⟩
          rw [List.take_succ_cons, size_cons]
          rwa [Nat.add_right_comm, Nat.add_assoc, Nat.add_assoc] at own

theorem take_drop_flatten {position : Nat} (found : made[position]? = some piece) :
    (made.flatten.drop (made.take position).flatten.length).take piece.length = piece := by
  rcases List.getElem?_eq_some_iff.mp found with ⟨inside, rfl⟩
  have split : made.flatten =
      (made.take position).flatten ++ (made[position] ++ (made.drop (position + 1)).flatten) := by
    rw [← List.flatten_cons, ← List.drop_eq_getElem_cons inside, ← List.flatten_append, List.take_append_drop]
  rw [split, List.drop_left, List.take_left]

/-- In encoded code, the bytes of each instruction are as many as its size says, as it is computed with numbers of four
bytes, and begin at its offset, which is the number of bytes before them. The last offset is the number of all. -/
theorem encode_lays_pieces (few : ∀ instruction ∈ instructions, instruction.operand.tableLength < 2 ^ 30 - 1)
    (encoded : encode emitter instructions before = (.ok bytes, after)) :
    ∃ places made, offsets instructions = .ok places ∧ pieces emitter instructions before = (.ok made, after) ∧
      bytes = made.flatten ∧ made.length = instructions.length ∧
      (∀ position instruction, instructions[position]? = some instruction →
        ∃ start piece earlier later, places[position]? = some start ∧ made[position]? = some piece ∧
          instructionBytes emitter places.toArray position start instruction earlier = (.ok piece, later) ∧
          (Watched.sizeOf instruction : Watched State Nat) = pure piece.length ∧ piece.length = instruction.size ∧
          start = (made.take position).flatten.length ∧ (bytes.drop start).take piece.length = piece) ∧
      places.length = instructions.length + 1 ∧ places[instructions.length]? = some bytes.length := by
  rw [encode_eq_flatten_pieces] at encoded
  rcases Emission.map_eq_ok_iff.mp encoded with ⟨made, emitted, rfl⟩
  rcases Emission.bind_eq_ok_iff.mp emitted with ⟨places, _, found, each⟩
  rcases Emission.ofExcept_eq_ok_iff.mp found with ⟨laidOut, rfl⟩
  rcases offsets_eq_ok_iff.mp laidOut with ⟨_, rfl⟩
  have agree := map_length_piecesFrom each
  have count : made.length = instructions.length := by simpa using congrArg List.length agree
  refine ⟨_, made, laidOut, emitted, rfl, count, ?_, length_offsetsFrom 0 instructions, ?_⟩
  · intro position instruction here
    rcases List.getElem?_eq_some_iff.mp here with ⟨inside, rfl⟩
    rcases getElem?_piecesFrom each here with ⟨piece, earlier, later, there, own⟩
    have length := length_instructionBytes own
    have begins := length_flatten_take agree position
    refine ⟨_, piece, earlier, later, getElem?_offsetsFrom 0 (Nat.le_of_lt inside), there, ?_, ?_, length, ?_, ?_⟩
    · rwa [Nat.zero_add] at own
    · rw [length]
      exact Watched.sizeOf_of_few (few _ (List.getElem_mem inside))
    · rw [begins, Nat.zero_add]
    · rw [Nat.zero_add, ← begins]
      exact take_drop_flatten there
  · have total := length_flatten_take agree instructions.length
    rw [← count, List.take_length, count] at total
    rw [getElem?_offsetsFrom 0 (Nat.le_refl _), total, Nat.zero_add]

/-- Code with a jump table, a short branch, and a string. -/
def spokenCode : List Instruction :=
  placeFrom 0 [.unplaced .switch (.targets [1, 3]), .unplaced .brS (.target 3), .unplaced .ldstr (.string "A"),
    .unplaced .ret .none]

/-- The bytes of the code. -/
def spokenData : List UInt8 :=
  [0x45, 0x02, 0x00, 0x00, 0x00, 0x00, 0x00, 0x00, 0x00, 0x07, 0x00, 0x00, 0x00, 0x2B, 0x05,
    0x72, 0x01, 0x00, 0x00, 0x70, 0x2A]

theorem encode_lays_pieces_spokenCode :
    (∀ instruction ∈ spokenCode, instruction.operand.tableLength < 2 ^ 30 - 1) ∧
      (encode Scope.emitter spokenCode Scope.empty).1 = .ok spokenData ∧
      ∃ places made, offsets spokenCode = .ok places ∧ (pieces Scope.emitter spokenCode Scope.empty).1 = .ok made ∧
        spokenData = made.flatten ∧ places[2]? = some 15 ∧ made[2]? = some [0x72, 0x01, 0x00, 0x00, 0x70] ∧
        places[4]? = some 21 := by
  have few : ∀ instruction ∈ spokenCode, instruction.operand.tableLength < 2 ^ 30 - 1 := by decide
  have encoded : (encode Scope.emitter spokenCode Scope.empty).1 = .ok spokenData := by decide +kernel
  rcases encode_lays_pieces few (Prod.ext encoded rfl) with
    ⟨places, made, laidOut, emitted, same, _, each, _, total⟩
  rcases each 2 _ rfl with ⟨start, piece, _, _, begins, there, _, _, length, _, part⟩
  have places_eq : places = [0, 13, 15, 20, 21] := by
    have computed : offsets spokenCode = .ok [0, 13, 15, 20, 21] := by decide +kernel
    exact Except.ok.inj (laidOut.symm.trans computed)
  subst places_eq
  cases begins
  rw [length] at part
  rw [← part] at there
  exact ⟨few, encoded, _, made, laidOut, congrArg Prod.fst emitted, same, rfl, there, total⟩

end Code

end CilRelink
