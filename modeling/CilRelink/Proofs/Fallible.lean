import Mathlib.Data.List.Forall2
import CilRelink.Scope

/-!
# Steps that may fail

When a chain of fallible steps, or the same step for each element of a list, comes to a result. Everything that
decodes, encodes or lays out code is such a chain, and its proofs take chains apart with these facts.
-/

namespace CilRelink

namespace Fallible

variable {α β γ ε : Type}

theorem bind_eq_ok_iff {first : Except ε α} {next : α → Except ε β} {result : β} :
    (first >>= next) = .ok result ↔ ∃ value, first = .ok value ∧ next value = .ok result := by
  cases first with
  | error error => simp [bind, Except.bind]
  | ok value => simp [bind, Except.bind]

theorem then_eq_ok_iff {check : Except ε Unit} {next : Except ε β} {result : β} :
    (check >>= fun _ => next) = .ok result ↔ check = .ok () ∧ next = .ok result := by
  rw [bind_eq_ok_iff]
  constructor
  · rintro ⟨⟨⟩, passed, more⟩
    exact ⟨passed, more⟩
  · rintro ⟨passed, more⟩
    exact ⟨(), passed, more⟩

theorem bind_eq_error_iff {first : Except ε α} {next : α → Except ε β} {error : ε} :
    (first >>= next) = .error error ↔
      first = .error error ∨ ∃ value, first = .ok value ∧ next value = .error error := by
  cases first with
  | error error => simp [bind, Except.bind]
  | ok value => simp [bind, Except.bind]

theorem map_eq_ok_iff {first : Except ε α} {change : α → β} {result : β} :
    change <$> first = .ok result ↔ ∃ value, first = .ok value ∧ change value = result := by
  cases first with
  | error error => simp [Functor.map, Except.map]
  | ok value => simp [Functor.map, Except.map]

theorem mapM_eq_ok_iff {step : α → Except ε β} {list : List α} {results : List β} :
    list.mapM step = .ok results ↔
      List.Forall₂ (fun element result => step element = .ok result) list results := by
  induction list generalizing results with
  | nil => cases results <;> simp [pure, Except.pure]
  | cons element list ih =>
      rw [List.mapM_cons, bind_eq_ok_iff]
      constructor
      · rintro ⟨first, stepped, more⟩
        rcases bind_eq_ok_iff.mp more with ⟨others, rest, same⟩
        cases same
        exact .cons stepped (ih.mp rest)
      · intro related
        rcases related with _ | ⟨stepped, rest⟩
        refine ⟨_, stepped, bind_eq_ok_iff.mpr ⟨_, ih.mpr rest, rfl⟩⟩

theorem exists_mapM_eq_ok {step : α → Except ε β} {list : List α}
    (each : ∀ element ∈ list, ∃ result, step element = .ok result) : ∃ results, list.mapM step = .ok results := by
  induction list with
  | nil => exact ⟨[], rfl⟩
  | cons element list ih =>
      rcases each element (by simp) with ⟨first, stepped⟩
      rcases ih (fun other otherMem => each other (by simp [otherMem])) with ⟨others, rest⟩
      exact ⟨first :: others, mapM_eq_ok_iff.mpr (.cons stepped (mapM_eq_ok_iff.mp rest))⟩

theorem forM_eq_ok_iff {step : α → Except ε Unit} {list : List α} :
    list.forM step = .ok () ↔ ∀ element ∈ list, step element = .ok () := by
  induction list with
  | nil => simp [pure, Except.pure]
  | cons element list ih =>
      change (step element >>= fun _ => list.forM step) = _ ↔ _
      rw [then_eq_ok_iff, ih, List.forall_mem_cons]

theorem exists_of_mapM_eq_error {step : α → Except ε β} {list : List α} {error : ε}
    (failed : list.mapM step = .error error) : ∃ element ∈ list, step element = .error error := by
  induction list with
  | nil => cases failed
  | cons element list ih =>
      rw [List.mapM_cons, bind_eq_error_iff] at failed
      rcases failed with first | ⟨value, _, more⟩
      · exact ⟨element, by simp, first⟩
      · rcases bind_eq_error_iff.mp more with rest | ⟨others, _, impossible⟩
        · rcases ih rest with ⟨other, otherMem, otherFailed⟩
          exact ⟨other, by simp [otherMem], otherFailed⟩
        · cases impossible

theorem exists_of_forM_eq_error {step : α → Except ε Unit} {list : List α} {error : ε}
    (failed : list.forM step = .error error) : ∃ element ∈ list, step element = .error error := by
  induction list with
  | nil => cases failed
  | cons element list ih =>
      change (step element >>= fun _ => list.forM step) = _ at failed
      rcases bind_eq_error_iff.mp failed with first | ⟨_, _, rest⟩
      · exact ⟨element, by simp, first⟩
      · rcases ih rest with ⟨other, otherMem, otherFailed⟩
        exact ⟨other, by simp [otherMem], otherFailed⟩

/-- A loop that takes a step for each element comes to the error of the first step that fails. -/
theorem eq_error_of_find? (loop : List α → Except ε γ) {step : α → Except ε β} {next : β → γ → Except ε γ}
    (unfolds : ∀ element list, loop (element :: list) = step element >>= fun value => loop list >>= next value)
    {fails : α → Bool} (fine : ∀ element, fails element = false → ∃ value, step element = .ok value)
    {list : List α} {first : α} (found : list.find? fails = some first) {error : ε}
    (failed : step first = .error error) : loop list = .error error := by
  induction list with
  | nil => cases found
  | cons element list ih =>
      rw [unfolds, bind_eq_error_iff]
      cases atHead : fails element with
      | true =>
          rw [List.find?_cons_of_pos atHead] at found
          cases found
          exact .inl failed
      | false =>
          rw [List.find?_cons_of_neg (by rw [atHead]; exact Bool.false_ne_true)] at found
          rcases fine element atHead with ⟨value, stepped⟩
          exact .inr ⟨value, stepped, bind_eq_error_iff.mpr (.inl (ih found))⟩

theorem mapM_eq_error_of_find? {step : α → Except ε β} {fails : α → Bool}
    (fine : ∀ element, fails element = false → ∃ value, step element = .ok value) {list : List α} {first : α}
    (found : list.find? fails = some first) {error : ε} (failed : step first = .error error) :
    list.mapM step = .error error :=
  eq_error_of_find? (·.mapM step) (fun _ _ => List.mapM_cons) fine found failed

theorem forM_eq_error_of_find? {step : α → Except ε Unit} {fails : α → Bool}
    (fine : ∀ element, fails element = false → ∃ value, step element = .ok value) {list : List α} {first : α}
    (found : list.find? fails = some first) {error : ε} (failed : step first = .error error) :
    list.forM step = .error error := by
  have unfolds (element : α) (list : List α) :
      (element :: list).forM step = step element >>= fun _ => list.forM step >>= .ok := by
    change (step element >>= fun _ => list.forM step) = _
    congr 1
    funext _
    cases list.forM step <;> rfl
  exact eq_error_of_find? (·.forM step) unfolds fine found failed

end Fallible

namespace Emission

variable {State α β : Type} {before after : State}

theorem pure_eq_ok_iff {value result : α} :
    (pure value : Emission State α) before = (.ok result, after) ↔ value = result ∧ before = after := by
  constructor
  · intro emitted
    cases emitted
    exact ⟨rfl, rfl⟩
  · rintro ⟨rfl, rfl⟩
    rfl

theorem ofExcept_eq_ok_iff {outcome : Except Error α} {result : α} :
    (ofExcept outcome : Emission State α) before = (.ok result, after) ↔ outcome = .ok result ∧ before = after := by
  constructor
  · intro emitted
    cases emitted
    exact ⟨rfl, rfl⟩
  · rintro ⟨rfl, rfl⟩
    rfl

theorem bind_eq_ok_iff {first : Emission State α} {next : α → Emission State β} {result : β} :
    (first >>= next) before = (.ok result, after) ↔
      ∃ value between, first before = (.ok value, between) ∧ next value between = (.ok result, after) := by
  change (ExceptT.bind first next) before = _ ↔ _
  unfold ExceptT.bind ExceptT.mk
  change (match first before with | (outcome, between) => (ExceptT.bindCont next outcome) between) = _ ↔ _
  rcases emitted : first before with ⟨outcome, between⟩
  cases outcome with
  | error error =>
      constructor
      · intro failed
        cases failed
      · rintro ⟨value, state, impossible, _⟩
        cases impossible
  | ok value =>
      constructor
      · intro more
        exact ⟨value, between, rfl, more⟩
      · rintro ⟨_, _, same, more⟩
        cases same
        exact more

theorem bind_apply (first : Emission State α) (next : α → Emission State β) (before : State) :
    (first >>= next) before =
      match first before with
      | (.ok value, between) => next value between
      | (.error error, between) => (.error error, between) := by
  change (match first before with | (outcome, between) => (ExceptT.bindCont next outcome) between) = _
  rcases first before with ⟨outcome, between⟩
  cases outcome <;> rfl

theorem bind_eq_error_iff {first : Emission State α} {next : α → Emission State β} {error : Error} :
    (first >>= next) before = (.error error, after) ↔
      first before = (.error error, after) ∨
        ∃ value between, first before = (.ok value, between) ∧ next value between = (.error error, after) := by
  rw [bind_apply]
  rcases first before with ⟨outcome, between⟩
  cases outcome with
  | error cause =>
      constructor
      · intro failed
        cases failed
        exact .inl rfl
      · rintro (failed | ⟨value, state, impossible, _⟩)
        · cases failed
          rfl
        · cases impossible
  | ok value =>
      constructor
      · intro more
        exact .inr ⟨value, between, rfl, more⟩
      · rintro (impossible | ⟨_, _, same, more⟩)
        · cases impossible
        · cases same
          exact more

theorem ofExcept_eq_error_iff {outcome : Except Error α} {error : Error} :
    (ofExcept outcome : Emission State α) before = (.error error, after) ↔ outcome = .error error ∧ before = after := by
  constructor
  · intro failed
    cases failed
    exact ⟨rfl, rfl⟩
  · rintro ⟨rfl, rfl⟩
    rfl

theorem map_eq_ok_iff {first : Emission State α} {change : α → β} {result : β} :
    (change <$> first) before = (.ok result, after) ↔
      ∃ value, first before = (.ok value, after) ∧ change value = result := by
  rw [← bind_pure_comp, bind_eq_ok_iff]
  constructor
  · rintro ⟨value, between, emitted, more⟩
    rcases pure_eq_ok_iff.mp more with ⟨same, rfl⟩
    exact ⟨value, emitted, same⟩
  · rintro ⟨value, emitted, same⟩
    exact ⟨value, after, emitted, pure_eq_ok_iff.mpr ⟨same, rfl⟩⟩

theorem throw_ne_ok {error : Error} {result : α} :
    (throw error : Emission State α) before ≠ (.ok result, after) := by
  intro emitted
  cases emitted

end Emission

end CilRelink
