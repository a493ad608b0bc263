import Mathlib.Logic.Basic
import CilRelink.Reference.Resemblance
import CilRelink.Proofs.Reference.Placeholders

/-!
# What resemblance tells

To find out whether references resemble each other, their placeholders are paired one after the other, and a pair that
contradicts an earlier one ends the search. The pairing never has to be revised: it comes to an end exactly if all pairs
together are one to one. So references resemble each other exactly if they have the same skeleton and if in both of them
the same places hold the same placeholder. This makes resemblance an equivalence that is coarser than identity, and no
coarser where there are no placeholders.
-/

namespace CilRelink

namespace Pairing

variable {pairing extended : Pairing} {left right : Placeholder} {pairs : List (Placeholder × Placeholder)}

/-- Whether the pairs keep owners, and equal placeholders on one side are paired with equal ones on the other. -/
def OneToOne (pairing : Pairing) : Prop :=
  ∀ first ∈ pairing, first.1.owner = first.2.owner ∧
    ∀ second ∈ pairing, (first.1 = second.1 ↔ first.2 = second.2)

theorem OneToOne.mono (oneToOne : extended.OneToOne) (inside : pairing ⊆ extended) : pairing.OneToOne := by
  intro first firstMem
  rcases oneToOne first (inside firstMem) with ⟨owner, unique⟩
  exact ⟨owner, fun second secondMem => unique second (inside secondMem)⟩

theorem oneToOne_congr (members : ∀ pair, pair ∈ pairing ↔ pair ∈ extended) :
    pairing.OneToOne ↔ extended.OneToOne :=
  ⟨fun oneToOne => oneToOne.mono fun pair => (members pair).mpr, fun oneToOne =>
    oneToOne.mono fun pair => (members pair).mp⟩

theorem oneToOne_cons :
    OneToOne ((left, right) :: pairing) ↔
      left.owner = right.owner ∧ (∀ pair ∈ pairing, left = pair.1 ↔ right = pair.2) ∧ pairing.OneToOne := by
  constructor
  · intro oneToOne
    rcases oneToOne (left, right) List.mem_cons_self with ⟨owner, unique⟩
    exact ⟨owner, fun pair pairMem => unique pair (List.mem_cons_of_mem _ pairMem),
      oneToOne.mono (List.subset_cons_self _ _)⟩
  · rintro ⟨owner, unique, oneToOne⟩ first firstMem
    rcases List.mem_cons.mp firstMem with rfl | firstMem
    · refine ⟨owner, fun second secondMem => ?_⟩
      rcases List.mem_cons.mp secondMem with rfl | secondMem
      · simp only
      · exact unique second secondMem
    · refine ⟨(oneToOne first firstMem).1, fun second secondMem => ?_⟩
      rcases List.mem_cons.mp secondMem with rfl | secondMem
      · rw [eq_comm, unique first firstMem, eq_comm]
      · exact (oneToOne first firstMem).2 second secondMem

/-! ## One pair after the other -/

/-- Whether neither of two placeholders is paired with anything yet. -/
def IsFresh (pairing : Pairing) (left right : Placeholder) : Prop :=
  ∀ pair ∈ pairing, pair.1 ≠ left ∧ pair.2 ≠ right

section Bind

variable (oneToOne : pairing.OneToOne)
include oneToOne

theorem find?_fst_of_mem (known : (left, right) ∈ pairing) :
    pairing.find? (·.1 = left) = some (left, right) := by
  cases found : pairing.find? (·.1 = left) with
  | none =>
      simp only [List.find?_eq_none, decide_eq_true_eq] at found
      exact absurd rfl (found _ known)
  | some pair =>
      have first : pair.1 = left := by simpa using List.find?_some found
      have second : pair.2 = right := ((oneToOne pair (List.mem_of_find?_eq_some found)).2 _ known).mp first
      rw [← first, ← second]

theorem find?_snd_of_mem (known : (left, right) ∈ pairing) :
    pairing.find? (·.2 = right) = some (left, right) := by
  cases found : pairing.find? (·.2 = right) with
  | none =>
      simp only [List.find?_eq_none, decide_eq_true_eq] at found
      exact absurd rfl (found _ known)
  | some pair =>
      have second : pair.2 = right := by simpa using List.find?_some found
      have first : pair.1 = left := ((oneToOne pair (List.mem_of_find?_eq_some found)).2 _ known).mpr second
      rw [← first, ← second]

theorem bind_of_mem (owner : left.owner = right.owner) (known : (left, right) ∈ pairing) :
    pairing.bind left right = some pairing := by
  rw [bind, if_pos owner, find?_fst_of_mem oneToOne known, find?_snd_of_mem oneToOne known]
  exact if_pos ⟨rfl, rfl⟩

omit oneToOne in
theorem bind_of_fresh (owner : left.owner = right.owner) (fresh : pairing.IsFresh left right) :
    pairing.bind left right = some ((left, right) :: pairing) := by
  have forwards : pairing.find? (·.1 = left) = none := by
    simpa using fun pair pairMem => (fresh pair pairMem).1
  have backwards : pairing.find? (·.2 = right) = none := by
    simpa using fun pair pairMem => (fresh pair pairMem).2
  rw [bind, if_pos owner, forwards, backwards]

omit oneToOne in
/-- A pair is refused if one of its sides is paired with something else. -/
theorem bind_of_clash (unknown : (left, right) ∉ pairing) (paired : ¬ pairing.IsFresh left right) :
    pairing.bind left right = none := by
  unfold bind
  split
  · split
    · rename_i forwards backwards
      simp only [List.find?_eq_none, decide_eq_true_eq] at forwards backwards
      exact absurd (fun pair pairMem => ⟨forwards pair pairMem, backwards pair pairMem⟩) paired
    · rename_i forward backward forwards backwards
      have first : forward.1 = left := by simpa using List.find?_some forwards
      refine if_neg fun agree => unknown ?_
      rw [← first, ← agree.1]
      exact List.mem_of_find?_eq_some forwards
    · rfl
  · rfl

/-- A pair can be bound exactly if it agrees with all that are there. -/
theorem isSome_bind_iff : (pairing.bind left right).isSome = true ↔ OneToOne ((left, right) :: pairing) := by
  rw [oneToOne_cons, and_iff_left oneToOne]
  by_cases owner : left.owner = right.owner
  · rw [and_iff_right owner]
    by_cases known : (left, right) ∈ pairing
    · rw [bind_of_mem oneToOne owner known, Option.isSome_some, eq_self, true_iff]
      exact (oneToOne _ known).2
    · by_cases fresh : pairing.IsFresh left right
      · rw [bind_of_fresh owner fresh, Option.isSome_some, eq_self, true_iff]
        exact fun pair pairMem =>
          iff_of_false (Ne.symm (fresh pair pairMem).1) (Ne.symm (fresh pair pairMem).2)
      · rw [bind_of_clash known fresh, Option.isSome_none, Bool.false_eq_true, false_iff]
        intro agree
        refine fresh fun pair pairMem => ⟨fun first => known ?_, fun second => known ?_⟩
        · rw [← first, (agree pair pairMem).mp first.symm]
          exact pairMem
        · rw [← second, (agree pair pairMem).mpr second.symm]
          exact pairMem
  · rw [bind, if_neg owner, Option.isSome_none, Bool.false_eq_true, false_iff]
    exact fun both => owner both.1

/-- A pair that was bound stands in the pairing, with nothing else that was not there before. -/
theorem mem_bind (bound : pairing.bind left right = some extended) (pair : Placeholder × Placeholder) :
    pair ∈ extended ↔ pair ∈ (left, right) :: pairing := by
  have owner : left.owner = right.owner :=
    (oneToOne_cons.mp ((isSome_bind_iff oneToOne).mp (Option.isSome_of_eq_some bound))).1
  by_cases known : (left, right) ∈ pairing
  · rw [bind_of_mem oneToOne owner known, Option.some.injEq] at bound
    rw [← bound, List.mem_cons]
    exact ⟨.inr, fun pairMem => pairMem.elim (fun same => same ▸ known) id⟩
  · by_cases fresh : pairing.IsFresh left right
    · rw [bind_of_fresh owner fresh, Option.some.injEq] at bound
      rw [bound]
    · rw [bind_of_clash known fresh] at bound
      cases bound

end Bind

/-- Binds pairs one after the other. -/
def bindEach (pairing : Pairing) (pairs : List (Placeholder × Placeholder)) : Option Pairing :=
  pairs.foldlM (fun pairing pair => pairing.bind pair.1 pair.2) pairing

theorem bindEach_singleton (pair : Placeholder × Placeholder) :
    pairing.bindEach [pair] = pairing.bind pair.1 pair.2 := by
  simp [bindEach]

theorem bindEach_zip_append {lefts rights : List Placeholder} (sameLength : lefts.length = rights.length)
    (moreLefts moreRights : List Placeholder) :
    pairing.bindEach ((lefts ++ moreLefts).zip (rights ++ moreRights)) = some extended ↔
      ∃ between, pairing.bindEach (lefts.zip rights) = some between ∧
        between.bindEach (moreLefts.zip moreRights) = some extended := by
  rw [List.zip_append sameLength, bindEach, List.foldlM_append]
  exact Option.bind_eq_some_iff

/-- Pairs can be bound one after the other exactly if all of them agree. -/
theorem isSome_bindEach_iff (oneToOne : pairing.OneToOne) :
    (pairing.bindEach pairs).isSome = true ↔ OneToOne (pairs ++ pairing) := by
  induction pairs generalizing pairing with
  | nil => simpa [bindEach] using oneToOne
  | cons pair pairs ih =>
      have next : pairing.bindEach (pair :: pairs) = (pairing.bind pair.1 pair.2).bind (·.bindEach pairs) :=
        List.foldlM_cons
      have bindable : (pairing.bind pair.1 pair.2).isSome = true ↔ OneToOne (pair :: pairing) :=
        isSome_bind_iff oneToOne
      rw [next]
      cases bound : pairing.bind pair.1 pair.2 with
      | none =>
          -- The pair that is refused is still among all pairs, which therefore do not agree either.
          rw [bound, Option.isSome_none, Bool.false_eq_true, false_iff] at bindable
          rw [Option.bind_none, Option.isSome_none, Bool.false_eq_true, false_iff]
          intro all
          apply bindable
          apply all.mono
          exact List.cons_subset_cons pair (List.subset_append_right _ _)
      | some extended =>
          have members := mem_bind oneToOne bound
          rw [bound, Option.isSome_some, eq_self, true_iff] at bindable
          rw [Option.bind_some, ih ((oneToOne_congr members).mpr bindable)]
          refine oneToOne_congr fun other => ?_
          rw [List.mem_append, members other, List.cons_append, List.mem_cons, List.mem_cons, List.mem_append,
            or_left_comm]

end Pairing

/-! ## Resemblance of trees -/

theorem TypeRef.pairAll_cons {pairing : Pairing} (left right : TypeRef) (lefts rights : List TypeRef) :
    TypeRef.pairAll pairing (left :: lefts) (right :: rights) =
      (TypeRef.pair pairing left right).bind (TypeRef.pairAll · lefts rights) := by
  rw [TypeRef.pairAll]
  cases TypeRef.pair pairing left right <;> rfl

theorem NamedType.pair_enclosed {pairing : Pairing} {leftOuter rightOuter : NamedType}
    {leftSpace leftName rightSpace rightName : String} {leftArguments rightArguments : List TypeRef}
    {leftAssembly rightAssembly : Option String} :
    NamedType.pair pairing ⟨leftSpace, leftName, some leftOuter, leftArguments, leftAssembly⟩
        ⟨rightSpace, rightName, some rightOuter, rightArguments, rightAssembly⟩ =
      if leftSpace = rightSpace ∧ leftName = rightName then
        (NamedType.pair pairing leftOuter rightOuter).bind (TypeRef.pairAll · leftArguments rightArguments)
      else none := by
  rw [NamedType.pair]
  cases NamedType.pair pairing leftOuter rightOuter <;> rfl

-- By induction on the left reference, for every pairing at once: the arguments of a type are paired with what is left
-- of the pairing behind the type around it. That skeletons agree there is what keeps the zipped lists aligned.
mutual

/-- References are paired by pairing their placeholders from first to last, if they have the same skeleton. -/
theorem TypeRef.pair_eq_some_iff : (left right : TypeRef) → ∀ {pairing extended : Pairing},
    (TypeRef.pair pairing left right = some extended ↔
      left.skeleton = right.skeleton ∧ pairing.bindEach (left.placeholders.zip right.placeholders) = some extended)
  | .named left, .named right, pairing, extended => by
    simp only [TypeRef.pair, TypeRef.skeleton, TypeRef.placeholders, TypeRef.named.injEq,
      NamedType.pair_eq_some_iff left right]
  | .placeholder left, .placeholder right, pairing, extended => by
    simp only [TypeRef.pair, TypeRef.skeleton, TypeRef.placeholders, List.zip_cons_cons, List.zip_nil_left,
      Pairing.bindEach_singleton, true_and]
  | .array left leftRank, .array right rightRank, pairing, extended => by
    simp only [TypeRef.pair, TypeRef.skeleton, TypeRef.placeholders, TypeRef.array.injEq, Option.ite_none_right_eq_some,
      TypeRef.pair_eq_some_iff left right, ← and_assoc, and_comm]
  | .byRef left, .byRef right, pairing, extended => by
    simp only [TypeRef.pair, TypeRef.skeleton, TypeRef.placeholders, TypeRef.byRef.injEq,
      TypeRef.pair_eq_some_iff left right]
  | .pointer left, .pointer right, pairing, extended => by
    simp only [TypeRef.pair, TypeRef.skeleton, TypeRef.placeholders, TypeRef.pointer.injEq,
      TypeRef.pair_eq_some_iff left right]
  | .named _, .placeholder _, _, _ | .named _, .array _ _, _, _ | .named _, .byRef _, _, _
  | .named _, .pointer _, _, _ | .placeholder _, .named _, _, _ | .placeholder _, .array _ _, _, _
  | .placeholder _, .byRef _, _, _ | .placeholder _, .pointer _, _, _ | .array _ _, .named _, _, _
  | .array _ _, .placeholder _, _, _ | .array _ _, .byRef _, _, _ | .array _ _, .pointer _, _, _
  | .byRef _, .named _, _, _ | .byRef _, .placeholder _, _, _ | .byRef _, .array _ _, _, _
  | .byRef _, .pointer _, _, _ | .pointer _, .named _, _, _ | .pointer _, .placeholder _, _, _
  | .pointer _, .array _ _, _, _ | .pointer _, .byRef _, _, _ => by
    simp only [TypeRef.pair, TypeRef.skeleton, reduceCtorEq, false_and]

theorem NamedType.pair_eq_some_iff : (left right : NamedType) → ∀ {pairing extended : Pairing},
    (NamedType.pair pairing left right = some extended ↔
      left.skeleton = right.skeleton ∧ pairing.bindEach (left.placeholders.zip right.placeholders) = some extended)
  | ⟨_, _, none, leftArguments, _⟩, ⟨_, _, none, rightArguments, _⟩, pairing, extended => by
    simp only [NamedType.pair, NamedType.skeleton, NamedType.placeholders, NamedType.mk.injEq,
      Option.ite_none_right_eq_some, TypeRef.pairAll_eq_some_iff leftArguments rightArguments, true_and, and_true,
      and_assoc]
  | ⟨_, _, some leftOuter, leftArguments, _⟩, ⟨_, _, some rightOuter, rightArguments, _⟩, pairing, extended => by
    simp only [NamedType.pair_enclosed, NamedType.skeleton, NamedType.placeholders, NamedType.mk.injEq,
      Option.some.injEq, Option.ite_none_right_eq_some, Option.bind_eq_some_iff,
      NamedType.pair_eq_some_iff leftOuter rightOuter, TypeRef.pairAll_eq_some_iff leftArguments rightArguments]
    constructor
    · rintro ⟨⟨sameSpace, sameName⟩, between, ⟨sameOuter, outer⟩, sameArguments, inner⟩
      exact ⟨⟨sameSpace, sameName, sameOuter, sameArguments, trivial⟩,
        (Pairing.bindEach_zip_append (NamedType.length_placeholders sameOuter) _ _).mpr ⟨between, outer, inner⟩⟩
    · rintro ⟨⟨sameSpace, sameName, sameOuter, sameArguments, _⟩, all⟩
      rcases (Pairing.bindEach_zip_append (NamedType.length_placeholders sameOuter) _ _).mp all with
        ⟨between, outer, inner⟩
      exact ⟨⟨sameSpace, sameName⟩, between, ⟨sameOuter, outer⟩, sameArguments, inner⟩
  | ⟨_, _, none, _, _⟩, ⟨_, _, some _, _, _⟩, _, _ | ⟨_, _, some _, _, _⟩, ⟨_, _, none, _, _⟩, _, _ => by
    simp only [NamedType.pair, NamedType.skeleton, NamedType.mk.injEq, reduceCtorEq, false_and, and_false]

theorem TypeRef.pairAll_eq_some_iff : (lefts rights : List TypeRef) → ∀ {pairing extended : Pairing},
    (TypeRef.pairAll pairing lefts rights = some extended ↔
      TypeRef.skeletonOfEach lefts = TypeRef.skeletonOfEach rights ∧
        pairing.bindEach ((TypeRef.placeholdersOfEach lefts).zip (TypeRef.placeholdersOfEach rights)) = some extended)
  | [], [], pairing, extended => by
    simp only [TypeRef.pairAll, TypeRef.skeletonOfEach, TypeRef.placeholdersOfEach, List.zip_nil_left, true_and]
    rfl
  | left :: lefts, right :: rights, pairing, extended => by
    simp only [TypeRef.pairAll_cons, TypeRef.skeletonOfEach, TypeRef.placeholdersOfEach, List.cons.injEq,
      Option.bind_eq_some_iff, TypeRef.pair_eq_some_iff left right, TypeRef.pairAll_eq_some_iff lefts rights]
    constructor
    · rintro ⟨between, ⟨same, first⟩, sameRest, rest⟩
      exact ⟨⟨same, sameRest⟩,
        (Pairing.bindEach_zip_append (TypeRef.length_placeholders same) _ _).mpr ⟨between, first, rest⟩⟩
    · rintro ⟨⟨same, sameRest⟩, all⟩
      rcases (Pairing.bindEach_zip_append (TypeRef.length_placeholders same) _ _).mp all with ⟨between, first, rest⟩
      exact ⟨between, ⟨same, first⟩, sameRest, rest⟩
  | [], _ :: _, _, _ | _ :: _, [], _, _ => by
    simp only [TypeRef.pairAll, TypeRef.skeletonOfEach, reduceCtorEq, false_and]

end

/-! ## Placeholders that are placed alike -/

namespace Placeholder

variable {lefts rights others : List Placeholder}

/-- Whether two lists hold placeholders of the same owners, one by one, and whether two places of one hold the same
placeholder just if these places of the other do. -/
structure PlacedAlike (lefts rights : List Placeholder) : Prop where
  owners : lefts.map owner = rights.map owner
  repeats : ∀ i j : Nat, lefts[i]? = lefts[j]? ↔ rights[i]? = rights[j]?

theorem PlacedAlike.refl (lefts : List Placeholder) : PlacedAlike lefts lefts := ⟨rfl, fun _ _ => Iff.rfl⟩

theorem PlacedAlike.symm (alike : PlacedAlike lefts rights) : PlacedAlike rights lefts :=
  ⟨alike.owners.symm, fun i j => (alike.repeats i j).symm⟩

theorem PlacedAlike.trans (alike : PlacedAlike lefts rights) (next : PlacedAlike rights others) :
    PlacedAlike lefts others :=
  ⟨alike.owners.trans next.owners, fun i j => (alike.repeats i j).trans (next.repeats i j)⟩

theorem PlacedAlike.length_eq (alike : PlacedAlike lefts rights) : lefts.length = rights.length := by
  simpa using congrArg List.length alike.owners

/-- Lists of the same length hold a placeholder each at a place, which the zipped list pairs, or nothing. -/
theorem exists_pair_or_none (sameLength : lefts.length = rights.length) (i : Nat) :
    (∃ pair ∈ lefts.zip rights, lefts[i]? = some pair.1 ∧ rights[i]? = some pair.2) ∨
      lefts[i]? = none ∧ rights[i]? = none := by
  by_cases inside : i < lefts.length
  · have insideRights : i < rights.length := sameLength ▸ inside
    have both := And.intro (List.getElem?_eq_getElem inside) (List.getElem?_eq_getElem insideRights)
    exact .inl ⟨(lefts[i], rights[i]), List.mem_of_getElem? (List.getElem?_zip_eq_some.mpr both), both⟩
  · exact .inr ⟨List.getElem?_eq_none (by omega), List.getElem?_eq_none (by omega)⟩

theorem placedAlike_iff (sameLength : lefts.length = rights.length) :
    PlacedAlike lefts rights ↔ Pairing.OneToOne (lefts.zip rights) := by
  constructor
  · intro alike first firstMem
    rcases List.mem_iff_getElem?.mp firstMem with ⟨i, atPlace⟩
    rw [List.getElem?_zip_eq_some] at atPlace
    refine ⟨?_, fun second secondMem => ?_⟩
    · have owners := congrArg (·[i]?) alike.owners
      simpa only [List.getElem?_map, atPlace.1, atPlace.2, Option.map_some, Option.some.injEq] using owners
    · rcases List.mem_iff_getElem?.mp secondMem with ⟨j, atOther⟩
      rw [List.getElem?_zip_eq_some] at atOther
      have repeats := alike.repeats i j
      rwa [atPlace.1, atOther.1, atPlace.2, atOther.2, Option.some.injEq, Option.some.injEq] at repeats
  · intro oneToOne
    refine ⟨List.ext_getElem? fun i => ?_, fun i j => ?_⟩
    · rw [List.getElem?_map, List.getElem?_map]
      rcases exists_pair_or_none sameLength i with ⟨pair, pairMem, left, right⟩ | ⟨left, right⟩
      · rw [left, right, Option.map_some, Option.map_some, (oneToOne pair pairMem).1]
      · rw [left, right, Option.map_none]
    · rcases exists_pair_or_none sameLength i with ⟨first, firstMem, left, right⟩ | ⟨left, right⟩ <;>
        rcases exists_pair_or_none sameLength j with ⟨second, secondMem, left', right'⟩ | ⟨left', right'⟩ <;>
        rw [left, right, left', right']
      · rw [Option.some.injEq, Option.some.injEq]
        exact (oneToOne first firstMem).2 second secondMem
      · simp only [reduceCtorEq]
      · simp only [reduceCtorEq]

end Placeholder

namespace TypeRef

/-- References resemble each other exactly if they have the same skeleton with placeholders that are placed alike. -/
theorem resembles_iff {left right : TypeRef} :
    left.resembles right = true ↔
      left.skeleton = right.skeleton ∧ Placeholder.PlacedAlike left.placeholders right.placeholders := by
  have nothing : Pairing.OneToOne [] := fun _ pairMem => absurd pairMem (List.not_mem_nil)
  have pairs : (Pairing.bindEach [] (left.placeholders.zip right.placeholders)).isSome = true ↔
      Pairing.OneToOne (left.placeholders.zip right.placeholders ++ []) := Pairing.isSome_bindEach_iff nothing
  rw [List.append_nil] at pairs
  rw [resembles, Option.isSome_iff_exists]
  simp only [TypeRef.pair_eq_some_iff, exists_and_left, ← Option.isSome_iff_exists, pairs]
  exact and_congr_right fun same => (Placeholder.placedAlike_iff (TypeRef.length_placeholders same)).symm

theorem denotesSame_iff_placeholders {left right : TypeRef} :
    left.denotesSame right = true ↔ left.skeleton = right.skeleton ∧ left.placeholders = right.placeholders :=
  (TypeRef.denotesSame_iff left right).trans (TypeRef.withoutAssemblies_eq_iff left right)

/-- Identity is a special case of resemblance. -/
theorem resembles_of_denotesSame {left right : TypeRef} (same : left.denotesSame right = true) :
    left.resembles right = true := by
  rcases denotesSame_iff_placeholders.mp same with ⟨sameSkeleton, samePlaceholders⟩
  exact resembles_iff.mpr ⟨sameSkeleton, samePlaceholders ▸ .refl _⟩

/-- References without placeholders that resemble each other are the same. -/
theorem denotesSame_of_resembles {left right : TypeRef} (alike : left.resembles right = true)
    (closed : left.placeholders = [] ∨ right.placeholders = []) : left.denotesSame right = true := by
  rcases resembles_iff.mp alike with ⟨sameSkeleton, placed⟩
  refine denotesSame_iff_placeholders.mpr ⟨sameSkeleton, ?_⟩
  have sameLength := placed.length_eq
  rcases closed with closed | closed <;> rw [closed] at sameLength ⊢
  · exact (List.length_eq_zero_iff.mp sameLength.symm).symm
  · exact List.length_eq_zero_iff.mp sameLength

theorem equivalence_resembles : Equivalence fun left right : TypeRef => left.resembles right = true where
  refl type := resembles_iff.mpr ⟨rfl, .refl _⟩
  symm alike := by
    rcases resembles_iff.mp alike with ⟨sameSkeleton, placed⟩
    exact resembles_iff.mpr ⟨sameSkeleton.symm, placed.symm⟩
  trans alike next := by
    rcases resembles_iff.mp alike with ⟨sameSkeleton, placed⟩
    rcases resembles_iff.mp next with ⟨nextSkeleton, nextPlaced⟩
    exact resembles_iff.mpr ⟨sameSkeleton.trans nextSkeleton, placed.trans nextPlaced⟩

theorem equivalence_denotesSame : Equivalence fun left right : TypeRef => left.denotesSame right = true where
  refl type := (TypeRef.denotesSame_iff type type).mpr rfl
  symm same := (TypeRef.denotesSame_iff _ _).mpr ((TypeRef.denotesSame_iff _ _).mp same).symm
  trans same next := by
    rw [TypeRef.denotesSame_iff] at same next ⊢
    exact same.trans next

/-- References resemble each other exactly if they have the same skeleton and their placeholders, from first to last,
have the same owners and are repeated at the same places. They denote the same type exactly if they are equal without
assemblies. Both are equivalences, the second implies the first, and they agree where one side has no placeholders. -/
theorem comparisons_tell_structure :
    (∀ left right : TypeRef, TypeRef.resembles? (some left) (some right) = true ↔
      left.skeleton = right.skeleton ∧ Placeholder.PlacedAlike left.placeholders right.placeholders) ∧
    (∀ left right : TypeRef, left.denotesSame right = true ↔ left.withoutAssemblies = right.withoutAssemblies) ∧
    (Equivalence fun left right : TypeRef => TypeRef.resembles? (some left) (some right) = true) ∧
    (Equivalence fun left right : TypeRef => left.denotesSame right = true) ∧
    (∀ left right : TypeRef, left.denotesSame right = true → TypeRef.resembles? (some left) (some right) = true) ∧
    ∀ left right : TypeRef, left.placeholders = [] ∨ right.placeholders = [] →
      TypeRef.resembles? (some left) (some right) = left.denotesSame right := by
  refine ⟨fun _ _ => resembles_iff, TypeRef.denotesSame_iff, equivalence_resembles, equivalence_denotesSame,
    fun _ _ => resembles_of_denotesSame, fun left right closed => ?_⟩
  exact Bool.eq_iff_iff.mpr ⟨fun alike => denotesSame_of_resembles alike closed, resembles_of_denotesSame⟩

section Tables

/-- Tables that lead from keys to values. -/
def tableOf (key value : TypeRef) : TypeRef :=
  .named ⟨"System.Collections.Generic", "Dictionary`2", none, [key, value], none⟩

/-- The parameter of a type at a position. -/
def atPosition (index : Nat) : TypeRef := .placeholder ⟨.type, index, none⟩

/-- The parameter of a type at a position, with its declared name. -/
def declaredAs (name : String) (index : Nat) : TypeRef := .placeholder ⟨.type, index, some name⟩

theorem comparisons_tell_structure_tables :
    let positional := tableOf (atPosition 0) (.array (atPosition 1) 1)
    let declared := tableOf (declaredAs "TKey" 0) (.array (declaredAs "TValue" 1) 1)
    let repeated := tableOf (atPosition 0) (.array (atPosition 0) 1)
    let closed := tableOf (simple "System" "String") (simple "System" "Int32")
    (TypeRef.resembles? (some positional) (some declared) = true ∧ positional.denotesSame declared = false ∧
        TypeRef.resembles? (some repeated) (some declared) = false) ∧
      closed.placeholders = [] ∧ closed.denotesSame (closed.inAssembly "System.Runtime") = true ∧
      TypeRef.resembles? (some closed) (some (closed.inAssembly "System.Runtime")) = true ∧
      TypeRef.resembles? (some closed) (some (closed.inAssembly "System.Runtime")) =
        closed.denotesSame (closed.inAssembly "System.Runtime") := by
  intro positional declared repeated closed
  rcases comparisons_tell_structure with ⟨_, _, _, _, resembles, agree⟩
  have same : closed.denotesSame (closed.inAssembly "System.Runtime") = true := by decide
  exact ⟨by decide, rfl, same, resembles _ _ same, agree _ _ (.inl rfl)⟩

end Tables

end TypeRef

end CilRelink
