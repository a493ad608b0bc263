import CilRelink.Bytes.LittleEndian
import CilRelink.Proofs.Fallible

/-!
# Watched runs

Functions on lists have an answer everywhere: taking more bytes than there are takes fewer, a difference below zero is
zero, and a number that is too large for its bytes is cut. A program that works on places in an array must not come
to any of these. A watched run does each of these steps only where it has its plain meaning, and otherwise ends in a
fault, which is neither a result nor an error. A watched run refines a plain one if it comes to the same result or to
the same error, and never to a fault.
-/

namespace CilRelink

/-- What a program must not come to. -/
inductive Fault where
  /-- A slice that is not within the bytes. -/
  | sliceOutside
  /-- An index behind the last element. -/
  | indexOutside
  /-- A difference below zero. -/
  | belowZero
  /-- A number that the bytes for it cannot tell, or an index past all indices. -/
  | cutNumber
  /-- A read inside a section that goes past its end. -/
  | pastSection
  /-- A table with more entries than there are bytes for. -/
  | oversizedTable
  /-- A step of a loop that does not go on. -/
  | standstill
  /-- A loop that takes more steps than it may. -/
  | endless
deriving DecidableEq

/-- A run that may fail, may change a state, and may come to a fault. -/
abbrev Watched (State α : Type) := ExceptT Error (StateT State (Except Fault)) α

namespace Watched

variable {State α β γ δ : Type}

/-- The run that comes to a fault. -/
def fault (cause : Fault) : Watched State α := fun _ => .error cause

/-- Goes on only if the condition holds. -/
def watch (condition : Prop) [Decidable condition] (cause : Fault) : Watched State Unit :=
  if condition then pure () else fault cause

/-- A step that needs no watching. -/
def of (step : Emission State α) : Watched State α := fun before => .ok (step before)

/-- A step that needs no watching and leaves the state alone. -/
def ofExcept (result : Except Error α) : Watched State α := of (.ofExcept result)

/-! ## Steps that are watched -/

/-- The bytes from `first` up to `last`. -/
def slice (data : List UInt8) (first last : Nat) : Watched State (List UInt8) := do
  watch (first ≤ last ∧ last ≤ data.length) .sliceOutside
  return (data.drop first).take (last - first)

/-- The element at a position. -/
def element (list : List α) (position : Nat) : Watched State α :=
  match list[position]? with
  | some value => pure value
  | none => fault .indexOutside

/-- The difference of two numbers. -/
def subtract (left right : Nat) : Watched State Nat := do
  watch (right ≤ left) .belowZero
  return left - right

/-- The number, which has to fit its bytes. -/
def narrow (width number : Nat) : Watched State Nat := do
  watch (number < 256 ^ width) .cutNumber
  return number

/-- The bytes of a number, which has to fit them. -/
def emit (width number : Nat) : Watched State (List UInt8) :=
  Bytes.encode width <$> narrow width number

/-! ## Where nothing is found -/

theorem watch_of {condition : Prop} [Decidable condition] (holds : condition) (cause : Fault) :
    (watch condition cause : Watched State Unit) = pure () := if_pos holds

theorem slice_of {data : List UInt8} {first last : Nat} (order : first ≤ last) (inside : last ≤ data.length) :
    (slice data first last : Watched State (List UInt8)) = pure ((data.drop first).take (last - first)) := by
  rw [slice, watch_of ⟨order, inside⟩, pure_bind]

theorem element_of {list : List α} {position : Nat} {value : α} (found : list[position]? = some value) :
    (element list position : Watched State α) = pure value := by
  rw [element, found]

theorem subtract_of {left right : Nat} (order : right ≤ left) :
    (subtract left right : Watched State Nat) = pure (left - right) := by
  rw [subtract, watch_of order, pure_bind]

theorem narrow_of {width number : Nat} (small : number < 256 ^ width) :
    (narrow width number : Watched State Nat) = pure number := by
  rw [narrow, watch_of small, pure_bind]

theorem emit_of {width number : Nat} (small : number < 256 ^ width) :
    (emit width number : Watched State (List UInt8)) = pure (Bytes.encode width number) := by
  rw [emit, narrow_of small, map_pure]

/-! ## Refinement -/

/-- Whether a watched run comes to what a plain one comes to, up to a relation between results. -/
structure Refines (related : α → β → Prop) (run : Watched State α) (plain : Emission State β) : Prop where
  ok {before after : State} {expected : β} (comes : plain before = (.ok expected, after)) :
    ∃ result, run before = .ok (.ok result, after) ∧ related result expected
  error {before after : State} {error : Error} (fails : plain before = (.error error, after)) :
    run before = .ok (.error error, after)

section Refines

variable {related : α → β → Prop} {relatedNext : γ → δ → Prop} {run : Watched State α} {plain : Emission State β}

theorem refines_eq_iff {run : Watched State α} {plain : Emission State α} :
    Refines Eq run plain ↔ ∀ before, run before = .ok (plain before) := by
  constructor
  · intro refines before
    rcases outcome : plain before with ⟨_ | expected, after⟩
    · exact refines.error outcome
    · rcases refines.ok outcome with ⟨_, found, rfl⟩
      exact found
  · intro same
    constructor
    · intro before after expected comes
      exact ⟨expected, by rw [same, comes], rfl⟩
    · intro before after error fails
      rw [same, fails]

theorem refines_of (plain : Emission State α) : Refines Eq (of plain) plain := refines_eq_iff.mpr fun _ => rfl

theorem refines_of_each {plain : Emission State α} {holds : α → Prop}
    (each : ∀ {before after value}, plain before = (.ok value, after) → holds value) :
    Refines (fun value expected => value = expected ∧ holds value) (of plain) plain where
  ok comes := ⟨_, congrArg Except.ok comes, rfl, each comes⟩
  error fails := congrArg Except.ok fails

theorem refines_pure {result : α} {expected : β} (same : related result expected) :
    Refines related (pure result : Watched State α) (pure expected) where
  ok comes := by
    cases comes
    exact ⟨result, rfl, same⟩
  error fails := by cases fails

theorem refines_throw (error : Error) : Refines related (throw error : Watched State α) (throw error) where
  ok comes := by cases comes
  error fails := by
    cases fails
    rfl

theorem bind_apply (first : Watched State α) (next : α → Watched State γ) (before : State) :
    (first >>= next) before =
      match first before with
      | .ok (.ok value, between) => next value between
      | .ok (.error error, between) => .ok (.error error, between)
      | .error cause => .error cause := by
  change Except.bind (first before) (fun reached => ExceptT.bindCont next reached.1 reached.2) = _
  rcases first before with _ | ⟨_ | _, _⟩ <;> rfl

/-- Steps one after the other refine each other if each does. The second may rely on how the results of the first are
related, and on what the plain step comes to. -/
theorem Refines.bind {next : α → Watched State γ} {plainNext : β → Emission State δ}
    (first : Refines related run plain)
    (second : ∀ result expected, related result expected →
      (∃ before after, plain before = (.ok expected, after)) → Refines relatedNext (next result) (plainNext expected)) :
    Refines relatedNext (run >>= next) (plain >>= plainNext) where
  ok {before after expected} comes := by
    rcases Emission.bind_eq_ok_iff.mp comes with ⟨middle, between, begins, ends⟩
    rcases first.ok begins with ⟨result, found, same⟩
    rw [bind_apply, found]
    exact (second result middle same ⟨before, between, begins⟩).ok ends
  error {before after error} fails := by
    rw [bind_apply]
    rcases Emission.bind_eq_error_iff.mp fails with begins | ⟨middle, between, begins, ends⟩
    · rw [first.error begins]
    · rcases first.ok begins with ⟨result, found, same⟩
      rw [found]
      exact (second result middle same ⟨before, between, begins⟩).error ends

theorem Refines.mapM {step : γ → Watched State α} {plainStep : γ → Emission State β} {list : List γ}
    (each : ∀ member ∈ list, Refines related (step member) (plainStep member)) :
    Refines (List.Forall₂ related) (list.mapM step) (list.mapM plainStep) := by
  induction list with
  | nil => exact refines_pure .nil
  | cons member list ih =>
      rw [List.forall_mem_cons] at each
      rw [List.mapM_cons, List.mapM_cons]
      refine each.1.bind fun result expected same _ => ?_
      refine (ih each.2).bind fun results others related _ => ?_
      exact refines_pure (.cons same related)

end Refines

/-! ## Steps that leave the state alone -/

/-- Whether a watched run comes to a result or an error, and leaves the state alone. -/
def RefinesExcept (State : Type) (related : α → β → Prop) (run : Watched State α) (result : Except Error β) : Prop :=
  Refines related run (.ofExcept result)

section RefinesExcept

variable {related : α → β → Prop} {relatedNext : γ → δ → Prop} {run : Watched State α} {result : Except Error β}

theorem refinesExcept_ofExcept (result : Except Error α) :
    RefinesExcept State Eq (ofExcept result) result := refines_of _

theorem refinesExcept_ok {value : α} {expected : β} (same : related value expected) :
    RefinesExcept State related (pure value) (.ok expected) := refines_pure same

theorem refinesExcept_error (error : Error) :
    RefinesExcept State related (throw error) (.error error) := refines_throw error

theorem RefinesExcept.bind {next : α → Watched State γ} {nextResult : β → Except Error δ}
    (first : RefinesExcept State related run result)
    (second : ∀ value expected, related value expected → result = .ok expected →
      RefinesExcept State relatedNext (next value) (nextResult expected)) :
    RefinesExcept State relatedNext (run >>= next) (result >>= nextResult) := by
  have parts : (Emission.ofExcept (result >>= nextResult) : Emission State δ) =
      (Emission.ofExcept result >>= fun value => Emission.ofExcept (nextResult value)) := by
    cases result <;> rfl
  unfold RefinesExcept
  rw [parts]
  refine Refines.bind first fun value expected same comes => ?_
  rcases comes with ⟨before, after, comes⟩
  exact second value expected same (Emission.ofExcept_eq_ok_iff.mp comes).1

theorem RefinesExcept.map {change : α → γ} {changeResult : β → δ} (first : RefinesExcept State related run result)
    (same : ∀ value expected, related value expected → result = .ok expected →
      relatedNext (change value) (changeResult expected)) :
    RefinesExcept State relatedNext (change <$> run) (changeResult <$> result) := by
  rw [← bind_pure_comp, ← bind_pure_comp]
  exact first.bind fun value expected related comes => refinesExcept_ok (same value expected related comes)

theorem RefinesExcept.mapM {step : γ → Watched State α} {stepResult : γ → Except Error α} {list : List γ}
    (each : ∀ member ∈ list, RefinesExcept State Eq (step member) (stepResult member)) :
    RefinesExcept State Eq (list.mapM step) (list.mapM stepResult) := by
  induction list with
  | nil => exact refinesExcept_ok rfl
  | cons member list ih =>
      rw [List.forall_mem_cons] at each
      rw [List.mapM_cons, List.mapM_cons]
      refine each.1.bind fun value expected same _ => ?_
      refine (ih each.2).bind fun values others sameOthers _ => ?_
      exact refinesExcept_ok (by rw [same, sameOthers])

end RefinesExcept

end Watched

end CilRelink
