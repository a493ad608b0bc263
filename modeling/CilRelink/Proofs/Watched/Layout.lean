import CilRelink.Proofs.Watched.Trap

/-!
# Watched layout

A pass of layout goes from place to place, looks offsets up by positions and writes opcodes back, and counts what it
does in numbers that have to be indices. Targets apart, and jump tables whose sizes are no numbers of four bytes, it
never comes to a fault: there is at most one pass more than there are short branches, and no pass looks up an offset
that is not there.
-/

namespace CilRelink

namespace Watched

variable {State α : Type}

/-- The index after one. -/
def increment (index : Nat) : Watched State Nat := do
  watch (index + 1 < Code.indexLimit) .cutNumber
  return index + 1

/-- The opcode that the instruction at `position` has to be given so that it reaches its targets, if it needs
another. -/
def widening? (offsets : List Nat) (position : Nat) (instruction : Instruction) : Watched State (Option Opcode) := do
  let size ← sizeOf instruction
  match instruction.opcode.operandKind with
  | .shortBranch => do
    let distances ← instruction.jumpPositions.mapM (displacement offsets position size)
    if distances.all Code.fitsByte then return none
    else
      match instruction.opcode.widened? with
      | some opcode => return some opcode
      | none => throw (.structural (.notWidenable instruction.opcode position))
  | .branch | .switch => do
    instruction.jumpPositions.forM fun target => do
      let wide ← displacement offsets position size target
      if Code.fitsWord wide then return () else throw (.structural (.displacementTooWide position wide))
    return none
  | _ => return none

/-- Widens the branches at `count` positions from `position` on that do not reach their targets, and counts them on
from `widened`. -/
def widenFrom (offsets : List Nat) : (count position widened : Nat) → Watched (List Instruction) Nat
  | 0, _, widened => return widened
  | count + 1, position, widened => do
    let code ← get
    let instruction ← element code position
    let change ← widening? offsets position instruction
    match change with
    | none => widenFrom offsets count (position + 1) widened
    | some opcode => do
      set (code.set position { instruction with opcode })
      let more ← increment widened
      widenFrom offsets count (position + 1) more

/-- Repeats passes until one widens nothing, at most `fuel` times. -/
def layoutFrom : (fuel passes widened : Nat) → Watched (List Instruction) Code.LayoutStats
  | 0, _, _ => fault .endless
  | fuel + 1, passes, widened => do
    let passes ← increment passes
    let code ← get
    let places ← offsetsFrom 0 code
    set (Code.placeFrom 0 code)
    let total ← widenFrom places code.length 0 widened
    if total = widened then return ⟨passes, widened, places.getLast?.getD 0⟩
    else layoutFrom fuel passes total

/-- Lays out the instructions, in at most one pass more than there are short branches. -/
def layout : Watched (List Instruction) Code.LayoutStats := fun code =>
  layoutFrom (Code.shortBranches code + 1) 0 0 code

theorem increment_of {index : Nat} (below : index + 1 < Code.indexLimit) :
    (increment index : Watched State Nat) = pure (index + 1) := by
  rw [increment, watch_of below, pure_bind]

theorem get_bind (next : State → Watched State α) (before : State) : (get >>= next) before = next before before := rfl

theorem set_bind (after : State) (next : Watched State α) (before : State) :
    (set after >>= fun _ => next) before = next after := rfl

/-- Widening a branch gives it no table. -/
theorem not_isOversized_of_relaid {before after : List Instruction}
    (relaid : List.Forall₂ Instruction.Relaid before after) (each : ∀ instruction ∈ before, ¬ IsOversized instruction) :
    ∀ instruction ∈ after, ¬ IsOversized instruction := by
  induction relaid with
  | nil => exact each
  | @cons old new _ _ step _ ih =>
      rw [List.forall_mem_cons] at each ⊢
      refine ⟨fun oversized => each.1 ?_, ih each.2⟩
      rcases oversized with ⟨table, many⟩
      rcases step.opcode with same | widened
      · rw [same] at table
        rw [step.operand] at many
        exact ⟨table, many⟩
      · rw [Code.operandKind_of_widened? widened] at table
        cases table

section Passes

variable {code rest : List Instruction} {instruction : Instruction} {position : Nat}

theorem widening?_eq_trapExcept (few : code.length < Code.indexLimit) (here : position < code.length)
    (placed : instruction.offset = Code.size (code.take position)) (small : instruction.size < 2 ^ 32) :
    (widening? (Code.offsetsFrom 0 code) position instruction : Watched State (Option Opcode)) =
      trapExcept (Code.widening? (Code.offsetsFrom 0 code).toArray position instruction) := by
  have distance (target : Nat) :
      (displacement (Code.offsetsFrom 0 code) position instruction.size target : Watched State Int) = _ :=
    displacement_eq_trapExcept few here instruction.size target
  have checked (target : Nat) :
      (do
        let wide ← displacement (Code.offsetsFrom 0 code) position instruction.size target
        if Code.fitsWord wide then return ()
        else throw (.structural (.displacementTooWide position wide)) : Watched State Unit) =
      trapExcept (do
        let wide ← Code.displacement (Code.offsetsFrom 0 code).toArray position
          (Code.size (code.take position) + instruction.size) target
        if !Code.fitsWord wide then throw (.structural (.displacementTooWide position wide))) := by
    rw [trapExcept_bind, distance]
    congr 1
    funext wide
    cases Code.fitsWord wide <;> rfl
  unfold widening? Code.widening?
  rw [sizeOf_of_small small, pure_bind, placed]
  cases instruction.opcode.operandKind with
  | shortBranch =>
      simp only
      rw [trapExcept_bind, trapExcept_mapM fun target _ => distance target]
      congr 1
      funext distances
      cases distances.all Code.fitsByte with
      | true => rfl
      | false => cases instruction.opcode.widened? <;> rfl
  | branch | «switch» =>
      simp only
      rw [trapExcept_bind, trapExcept_forM fun target _ => checked target]
      rfl
  | _ => rfl

/-- What a pass comes to that has seen instructions and widened branches before. -/
def continued (front : List Instruction) (widened : Nat) (pass : Except Error Nat × List Instruction) :
    Except Error Nat × List Instruction :=
  ((widened + ·) <$> pass.1, front ++ pass.2)

theorem continued_append (front : List Instruction) (widened : Nat) (count : Except Error Nat)
    (result : List Instruction) :
    continued (front ++ [instruction]) widened (count, result) =
      continued front widened (count, instruction :: result) := by
  rw [continued, continued, List.append_assoc, List.singleton_append]

theorem continued_succ (front : List Instruction) (widened : Nat) (count : Except Error Nat)
    (result : List Instruction) :
    continued front (widened + 1) (count, result) = continued front widened ((· + 1) <$> count, result) := by
  rcases count with error | count
  · rfl
  · have same : widened + 1 + count = widened + (count + 1) := by omega
    change (Except.ok (widened + 1 + count), _) = _
    rw [same]
    rfl

/-- A pass goes through the places one by one. In front of the place that it is at are those that it has seen. -/
theorem widenFrom_eq_trapped (small : Code.size code < 2 ^ 32) (found : rest = code.drop position)
    (front : List Instruction) (seen : front.length = position) (widened : Nat)
    (room : widened + Code.shortBranches rest < Code.indexLimit) :
    widenFrom (Code.offsetsFrom 0 code) rest.length position widened
        (front ++ Code.placeFrom (Code.size (code.take position)) rest) =
      trapped (continued front widened (Code.widenFrom (Code.offsetsFrom 0 code).toArray position
        (Code.placeFrom (Code.size (code.take position)) rest))) := by
  induction rest generalizing position front widened with
  | nil => rfl
  | cons instruction rest ih =>
      rcases Code.of_cons_eq_drop found with ⟨here, others⟩
      have fits : instruction.size < 2 ^ 32 := Nat.lt_of_le_of_lt (Code.size_le_size here) small
      rw [Code.shortBranches_cons] at room
      rw [Code.placeFrom, ← Code.size_take_succ here]
      have later (other : Instruction) {widened : Nat} := ih others (front ++ [other]) (by simp [seen]) widened
      generalize Code.placeFrom (Code.size (code.take (position + 1))) rest = behind at later ⊢
      generalize placement : ({ instruction with offset := Code.size (code.take position) } : Instruction) = placed
      have atPlace : (front ++ placed :: behind)[position]? = some placed := by
        rw [← seen]
        simp
      have watched : (widening? (Code.offsetsFrom 0 code) position placed : Watched (List Instruction) _) = _ :=
        widening?_eq_trapExcept (Code.length_lt_indexLimit small) (List.getElem?_eq_some_iff.mp here).1
          (by rw [← placement]) (by rw [← placement]; exact fits)
      rw [List.length_cons, widenFrom, get_bind, element_of atPlace, pure_bind, watched, trapExcept_bind_apply,
        Code.widenFrom]
      rcases pass : Code.widenFrom (Code.offsetsFrom 0 code).toArray (position + 1) behind with ⟨count, result⟩
      cases step : Code.widening? (Code.offsetsFrom 0 code).toArray position placed with
      | error error => cases error <;> rfl
      | ok change =>
          cases change with
          | none =>
              simp only
              rw [List.append_cons, later placed (by omega), pass, continued_append]
          | some opcode =>
              -- what is widened was counted among the short branches, so there is room to count it
              have short : instruction.opcode.operandKind = .shortBranch := by
                have isShort := (Code.short_of_widening? step).1
                rw [← placement] at isShort
                simpa [Instruction.isShortBranch] using isShort
              rw [if_pos short] at room
              have written : (front ++ placed :: behind).set position { placed with opcode } =
                  front ++ { placed with opcode } :: behind := by
                rw [← seen]
                simp
              simp only
              rw [set_bind, written, increment_of (by omega), pure_bind, List.append_cons, later _ (by omega),
                pass, continued_append, continued_succ]

theorem layoutFrom_of_large (large : ¬ Code.size code < 2 ^ 32) (kept : ¬ MeetsOversized 0 code) {passes : Nat}
    (fuel widened : Nat) (roomToPass : passes + 1 < Code.indexLimit) :
    layoutFrom (fuel + 1) passes widened code = .ok (.error (.structural .codeTooLarge), code) := by
  rw [layoutFrom, increment_of roomToPass, pure_bind, get_bind, offsetsFrom_of_large (by decide) kept (by omega)]
  rfl

/-- A pass that follows another meets no jump table that is too large. -/
theorem not_meetsOversized_of_widenFrom (small : Code.size code < 2 ^ 32) {offsets : Array Nat}
    {outcome : Except Error Nat} {result : List Instruction}
    (pass : Code.widenFrom offsets 0 (Code.placeFrom 0 code) = (outcome, result)) : ¬ MeetsOversized 0 result := by
  have relaid := Code.relaid_trans (Code.relaid_placeFrom 0 code) (Code.relaid_of_widenFrom pass)
  exact not_meetsOversized (not_isOversized_of_relaid relaid (not_isOversized_of_fits small))

/-- One pass, and what follows it. -/
theorem layoutFrom_succ (small : Code.size code < 2 ^ 32) {passes widened : Nat} (fuel : Nat)
    (roomToPass : passes + 1 < Code.indexLimit) (roomToWiden : widened + Code.shortBranches code < Code.indexLimit) :
    layoutFrom (fuel + 1) passes widened code =
      match Code.widenFrom (Code.offsetsFrom 0 code).toArray 0 (Code.placeFrom 0 code) with
      | (.error error, result) => trapped (.error error, result)
      | (.ok 0, result) => .ok (.ok ⟨passes + 1, widened, Code.size code⟩, result)
      | (.ok (more + 1), result) => layoutFrom fuel (passes + 1) (widened + more + 1) result := by
  have pass : widenFrom (Code.offsetsFrom 0 code) code.length 0 widened (Code.placeFrom 0 code) = _ :=
    widenFrom_eq_trapped small List.drop_zero.symm [] rfl widened roomToWiden
  rw [layoutFrom, increment_of roomToPass, pure_bind, get_bind, offsetsFrom_of_fits (by omega), pure_bind, set_bind,
    bind_apply, pass, List.take_zero, Code.size_nil]
  rcases Code.widenFrom (Code.offsetsFrom 0 code).toArray 0 (Code.placeFrom 0 code) with ⟨error | count, result⟩
  · cases error <;> rfl
  · cases count with
    | zero =>
        rw [Code.getLast?_offsetsFrom, Option.getD_some, Nat.zero_add]
        exact congrFun (if_pos rfl) result
    | succ more =>
        have further : ¬ widened + (more + 1) = widened := by omega
        exact congrFun (if_neg further) result

/-- As many passes as there are short branches, and one, are enough. -/
theorem layoutFrom_eq_trapped (kept : ¬ MeetsOversized 0 code) (passes widened : Nat) {fuel : Nat}
    (enough : Code.shortBranches code < fuel)
    (roomToPass : passes + Code.shortBranches code + 1 < Code.indexLimit)
    (roomToWiden : widened + Code.shortBranches code < Code.indexLimit) :
    layoutFrom fuel passes widened code = trapped (Code.layoutFrom passes widened code) := by
  rcases Nat.exists_eq_add_of_lt enough with ⟨spare, rfl⟩
  clear enough
  fun_induction Code.layoutFrom passes widened code generalizing spare with
  | case1 passes widened code error failed =>
      have large : ¬ Code.size code < 2 ^ 32 := fun small => by
        rw [Code.offsets, if_pos small] at failed
        cases failed
      rw [Code.offsets, if_neg large] at failed
      cases failed
      exact layoutFrom_of_large large kept _ _ (by omega)
  | case2 passes widened code places found error changed failed =>
      rcases Code.offsets_eq_ok_iff.mp found with ⟨small, rfl⟩
      rw [layoutFrom_succ small _ (by omega) roomToWiden, failed]
  | case3 passes widened code places found changed last =>
      rcases Code.offsets_eq_ok_iff.mp found with ⟨small, rfl⟩
      rw [layoutFrom_succ small _ (by omega) roomToWiden, last]
      rfl
  | case4 passes widened code places found more result pass ih =>
      rcases Code.offsets_eq_ok_iff.mp found with ⟨small, rfl⟩
      -- each branch that the pass widened is one pass less that can follow
      have fewer := Code.shortBranches_of_widenFrom pass
      rw [Code.shortBranches_placeFrom] at fewer
      have fuel : Code.shortBranches code + spare = Code.shortBranches result + (more + spare) + 1 := by omega
      rw [layoutFrom_succ small _ (by omega) roomToWiden, pass, fuel]
      exact ih (not_meetsOversized_of_widenFrom small pass) (by omega) (by omega) _

/-- Whatever the targets are, layout comes to an end, overflows where the plain one tells so, and looks up no place that
is not there, as long as it meets no jump table that is too large. -/
theorem layout_eq_trapped (kept : ¬ MeetsOversized 0 code) : layout code = trapped (Code.layout code) := by
  by_cases small : Code.size code < 2 ^ 32
  · have count : Code.shortBranches code ≤ Code.size code :=
      Nat.le_trans List.countP_le_length (Code.length_le_size code)
    have limit : 2 ^ 32 + 1 < Code.indexLimit := by decide
    exact layoutFrom_eq_trapped kept 0 0 (Nat.lt_succ_self _) (by omega) (by omega)
  · rw [Code.layout, Code.layoutFrom_of_large small]
    exact layoutFrom_of_large small kept _ _ (by decide)

theorem layout_of_meetsOversized (meets : MeetsOversized 0 code) : layout code = .error .cutNumber := by
  rw [layout, layoutFrom, increment_of (by decide), pure_bind, get_bind, offsetsFrom_of_meetsOversized meets]
  rfl

end Passes

end Watched

end CilRelink
