import Mathlib.Data.Nat.Digits.Defs
import CilRelink.Bytes.Cursor
import CilRelink.Proofs.Bytes.Numbers

/-!
# Reading in order

A cursor answers requests one after the other. Each either has a place to go to within the bytes, and then the cursor
goes there, or is out of bounds, and then the cursor stays. What is read on the way is what the bytes say, and so values
that were written one behind the other are read back by asking for their kinds in order.
-/

namespace CilRelink

namespace Bytes

theorem decode_eq_ofDigits (bytes : List UInt8) : decode bytes = Nat.ofDigits 256 (bytes.map UInt8.toNat) := by
  induction bytes with
  | nil => rfl
  | cons byte bytes ih => rw [decode, List.map_cons, Nat.ofDigits_cons, ih]

theorem decode_lt (bytes : List UInt8) : decode bytes < 256 ^ bytes.length := by
  have found := read_eq bytes.length bytes
  rw [if_pos (Nat.le_refl _), List.take_length] at found
  exact (eq_encode_of_read found).1

theorem decode_encode_of_lt {width number : Nat} (small : number < 256 ^ width) :
    decode (encode width number) = number := by
  have found := read_encode_of_lt small []
  rw [List.append_nil, read_eq, length_encode, if_pos (Nat.le_refl _), Option.some.injEq, Prod.mk.injEq] at found
  exact (List.take_of_length_le (Nat.le_of_eq (length_encode width number))) ▸ found.1

/-! ## Values of a kind -/

namespace PrimitiveKind

/-- Whether the values of the kind are numbers in two's complement. -/
def isSigned : PrimitiveKind → Bool
  | int8 | int16 | int32 | int64 => true
  | uint8 | uint16 | uint32 | uint64 | float32 | float64 => false

end PrimitiveKind

namespace Primitive

/-- The whole number that a value is; a floating point number is none. -/
def number? : Primitive → Option Int
  | uint8 value => some value.toNat
  | int8 value => some value.toInt
  | uint16 value => some value.toNat
  | int16 value => some value.toInt
  | uint32 value => some value.toNat
  | int32 value => some value.toInt
  | uint64 value => some value.toNat
  | int64 value => some value.toInt
  | float32 _ | float64 _ => none

theorem kind_value (kind : PrimitiveKind) (bits : Nat) : (kind.value bits).kind = kind := by
  cases kind <;> rfl

theorem bits_value {kind : PrimitiveKind} {bits : Nat} (small : bits < 256 ^ kind.width) :
    (kind.value bits).bits = bits := by
  cases kind <;> simp [PrimitiveKind.width, PrimitiveKind.value, Primitive.bits] at small ⊢ <;> omega

theorem bits_lt (value : Primitive) : value.bits < 256 ^ value.kind.width := by
  cases value with
  | uint8 value => exact value.toNat_lt
  | int8 value => exact value.toUInt8.toNat_lt
  | uint16 value => exact value.toNat_lt
  | int16 value => exact value.toUInt16.toNat_lt
  | uint32 value => exact value.toNat_lt
  | int32 value => exact value.toUInt32.toNat_lt
  | uint64 value => exact value.toNat_lt
  | int64 value => exact value.toUInt64.toNat_lt
  | float32 bits => exact bits.toNat_lt
  | float64 bits => exact bits.toNat_lt

theorem length_bytes (value : Primitive) : value.bytes.length = value.kind.width := length_encode _ _

theorem value_bits (value : Primitive) : value.kind.value value.bits = value := by
  cases value <;> simp [Primitive.kind, Primitive.bits, PrimitiveKind.value]

theorem toInt_eq_bmod {size width : Nat} (bits : BitVec size) (same : 2 ^ size = 256 ^ width) :
    bits.toInt = Int.bmod bits.toNat (256 ^ width) := by
  rw [BitVec.toInt_eq_toNat_bmod, same]

/-- A whole number is that of its bits, in two's complement if the kind is signed. -/
theorem number?_eq {value : Primitive} {number : Int} (whole : value.number? = some number) :
    number = if value.kind.isSigned then Int.bmod value.bits (256 ^ value.kind.width) else value.bits := by
  cases value with
  | uint8 value | uint16 value | uint32 value | uint64 value => exact (Option.some.inj whole).symm
  | int8 value | int16 value | int32 value | int64 value =>
      rw [← Option.some.inj whole]
      exact (toInt_eq_bmod value.toBitVec rfl).trans (if_pos rfl).symm
  | float32 | float64 => cases whole

end Primitive

/-- Whether a value is what bytes say when they are read as one of the kind: its bits are theirs, the first byte being
the least significant, its number is that of its bits, and they are the bytes that it is written as. -/
structure Spells (bytes : List UInt8) (kind : PrimitiveKind) (value : Primitive) : Prop where
  kind_eq : value.kind = kind
  bits_eq : value.bits = Nat.ofDigits 256 (bytes.map UInt8.toNat)
  number_eq : ∀ number, value.number? = some number →
    number = if kind.isSigned then Int.bmod value.bits (256 ^ bytes.length) else value.bits
  bytes_eq : value.bytes = bytes

theorem encode_length_decode (bytes : List UInt8) : encode bytes.length (decode bytes) = bytes := by
  have found := read_eq bytes.length bytes
  rw [if_pos (Nat.le_refl _), List.take_length, List.drop_length] at found
  exact ((eq_encode_of_read found).2.trans (List.append_nil _)).symm

theorem spells_value {bytes : List UInt8} {kind : PrimitiveKind} (enough : bytes.length = kind.width) :
    Spells bytes kind (kind.value (decode bytes)) := by
  have sameKind := Primitive.kind_value kind (decode bytes)
  have sameBits : (kind.value (decode bytes)).bits = decode bytes := by
    apply Primitive.bits_value
    rw [← enough]
    exact decode_lt bytes
  refine ⟨sameKind, by rw [sameBits, decode_eq_ofDigits], fun number whole => ?_, ?_⟩
  · rw [Primitive.number?_eq whole, sameKind, enough]
  · rw [Primitive.bytes, sameKind, sameBits, ← enough, encode_length_decode]

namespace Cursor

/-! ## One request -/

/-- Whether a request at `position` comes to an outcome and leaves the cursor at another position. What would go past
the end is out of bounds and leaves the cursor where it was. -/
inductive Serves (data : List UInt8) (position : Nat) : Request → Except Error (Option Primitive) → Nat → Prop
  | sought {place : Nat} (inside : place ≤ data.length) : Serves data position (.seek place) (.ok none) place
  | notSought {place : Nat} (outside : data.length < place) :
      Serves data position (.seek place) (.error .outOfBounds) position
  | read {kind : PrimitiveKind} {value : Primitive} (inside : position + kind.width ≤ data.length)
      (said : Spells ((data.drop position).take kind.width) kind value) :
      Serves data position (.read kind) (.ok (some value)) (position + kind.width)
  | notRead {kind : PrimitiveKind} (outside : data.length < position + kind.width) :
      Serves data position (.read kind) (.error .outOfBounds) position

theorem serves_step (cursor : Cursor) (request : Request) :
    Serves cursor.data cursor.position request (cursor.step request).1 (cursor.step request).2.position := by
  cases request with
  | seek place =>
      by_cases inside : place ≤ cursor.data.length
      · simp only [step, seek, dif_pos inside]
        exact .sought inside
      · simp only [step, seek, dif_neg inside]
        exact .notSought (Nat.lt_of_not_le inside)
  | read kind =>
      by_cases inside : cursor.position + kind.width ≤ cursor.data.length
      · simp only [step, read, dif_pos inside]
        refine .read inside (spells_value ?_)
        rw [List.length_take_of_le]
        rw [List.length_drop]
        omega
      · simp only [step, read, dif_neg inside]
        exact .notRead (Nat.lt_of_not_le inside)

theorem data_step (cursor : Cursor) (request : Request) : (cursor.step request).2.data = cursor.data := by
  cases request with
  | seek place =>
      simp only [step, seek]
      split <;> rename_i moved <;> split at moved <;> cases moved <;> rfl
  | read kind =>
      simp only [step, read]
      split <;> rename_i moved <;> split at moved <;> cases moved <;> rfl

/-! ## Requests in order -/

/-- What requests come to one after the other, and the cursor after the last. -/
def run (cursor : Cursor) : List Request → List (Except Error (Option Primitive)) × Cursor
  | [] => ([], cursor)
  | request :: requests =>
    let (outcome, next) := cursor.step request
    let (outcomes, last) := next.run requests
    (outcome :: outcomes, last)

theorem run_append (cursor : Cursor) (earlier later : List Request) :
    cursor.run (earlier ++ later) =
      ((cursor.run earlier).1 ++ ((cursor.run earlier).2.run later).1, ((cursor.run earlier).2.run later).2) := by
  induction earlier generalizing cursor with
  | nil => rfl
  | cons request earlier ih => simp only [List.cons_append, run, ih]

theorem length_run (cursor : Cursor) (requests : List Request) : (cursor.run requests).1.length = requests.length := by
  induction requests generalizing cursor with
  | nil => rfl
  | cons request requests ih => rw [run, List.length_cons, List.length_cons, ih]

theorem data_run (cursor : Cursor) (requests : List Request) : (cursor.run requests).2.data = cursor.data := by
  induction requests generalizing cursor with
  | nil => rfl
  | cons request requests ih => rw [run, ih, data_step]

/-- The bytes of a value are read as the value, and nothing else is. -/
theorem step_read_kind {cursor : Cursor} {value : Primitive} {rest : List UInt8}
    (ahead : cursor.data.drop cursor.position = value.bytes ++ rest) :
    (cursor.step (.read value.kind)).1 = .ok (some value) ∧
      (cursor.step (.read value.kind)).2.position = cursor.position + value.kind.width := by
  have inside : cursor.position + value.kind.width ≤ cursor.data.length := by
    have remaining := congrArg List.length ahead
    rw [List.length_drop, List.length_append, value.length_bytes] at remaining
    have := cursor.position_le
    omega
  have bytes : (cursor.data.drop cursor.position).take value.kind.width = value.bytes := by
    rw [ahead, ← value.length_bytes, List.take_left]
  simp only [step, read, dif_pos inside, bytes, and_true]
  rw [Primitive.bytes, decode_encode_of_lt value.bits_lt, Primitive.value_bits]

theorem run_reads (cursor : Cursor) (values : List Primitive) {rest : List UInt8}
    (ahead : cursor.data.drop cursor.position = values.flatMap Primitive.bytes ++ rest) :
    (cursor.run (values.map fun value => .read value.kind)).1 = values.map (fun value => .ok (some value)) ∧
      (cursor.run (values.map fun value => .read value.kind)).2.position =
        cursor.position + (values.flatMap Primitive.bytes).length := by
  induction values generalizing cursor with
  | nil => exact ⟨rfl, rfl⟩
  | cons value values ih =>
      rw [List.flatMap_cons, List.append_assoc] at ahead
      rcases step_read_kind ahead with ⟨outcome, place⟩
      have behind : (cursor.step (.read value.kind)).2.data.drop (cursor.step (.read value.kind)).2.position =
          values.flatMap Primitive.bytes ++ rest := by
        rw [data_step, place, ← List.drop_drop, ahead, ← value.length_bytes, List.drop_left]
      rcases ih _ behind with ⟨outcomes, last⟩
      simp only [List.map_cons, run, outcome, outcomes, last, place, List.flatMap_cons, List.length_append,
        Primitive.length_bytes, true_and]
      exact Nat.add_assoc _ _ _

/-- Whatever a cursor is asked for, and in whatever order, it stays within the bytes, and each request is served: it is
out of bounds just if it would go past the end, and then the cursor stays where it was, and what is read are the bytes
that the cursor leaves behind. So values that are written one behind the other are read back bit for bit by their kinds,
and the last ends where the bytes end. -/
theorem run_serves :
    (∀ (data : List UInt8) (earlier : List Request) (request : Request) (later : List Request),
      ∃ outcome, ((start data).run (earlier ++ request :: later)).1[earlier.length]? = some outcome ∧
        Serves data ((start data).run earlier).2.position request outcome
          ((start data).run (earlier ++ [request])).2.position ∧
        ((start data).run (earlier ++ [request])).2.position ≤ data.length) ∧
      ∀ values : List Primitive,
        let ran := (start (values.flatMap Primitive.bytes)).run (values.map fun value => .read value.kind)
        ran.1 = values.map (fun value => .ok (some value)) ∧
          ran.2.position = (values.flatMap Primitive.bytes).length := by
  constructor
  · intro data earlier request later
    have before := length_run (start data) earlier
    have sameData : ((start data).run earlier).2.data = data := data_run _ _
    have after : ((start data).run (earlier ++ [request])).2 = (((start data).run earlier).2.step request).2 := by
      rw [run_append]
      rfl
    refine ⟨(((start data).run earlier).2.step request).1, ?_, ?_, ?_⟩
    · rw [run_append, ← before, List.getElem?_append_right (Nat.le_refl _), Nat.sub_self]
      rfl
    · have served := serves_step ((start data).run earlier).2 request
      rwa [sameData, ← after] at served
    · have inside := ((start data).run (earlier ++ [request])).2.position_le
      rwa [data_run] at inside
  · intro values
    have ahead : (start (values.flatMap Primitive.bytes)).data.drop (start (values.flatMap Primitive.bytes)).position =
        values.flatMap Primitive.bytes ++ [] := (List.append_nil _).symm
    have ran := run_reads _ values ahead
    rwa [start, Nat.zero_add] at ran

end Cursor

end Bytes

end CilRelink
