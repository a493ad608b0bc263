import CilRelink.Proofs.Reference.Identity

/-!
# Names of types that are denoted

Whether a reference denotes a live type is found out by going through both trees at once. The namespace and the simple
name of either are computed without the other: the namespace on the way out to the outermost type, the name on the way
in through arrays, references and pointers. Along both ways, trees of which one denotes the other stay of one shape. So
the quick test by namespace and name passes whatever the comparison of the trees finds.
-/

namespace CilRelink

theorem TypeRef.simpleName_withoutAssemblies (type : TypeRef) :
    type.withoutAssemblies.simpleName = type.simpleName := by
  fun_induction simpleName type with
  | case1 type => rcases type with ⟨_, _, _ | _, _, _⟩ <;> rfl
  | case2 parameter => rfl
  | case3 element rank ih | case4 target ih | case5 target ih => rw [withoutAssemblies, simpleName, ih]

namespace HostType

variable {type : HostType} {reference : TypeRef}

/-- The outermost types are of one namespace. -/
theorem lookupNamespace_of_isDenotedBy (denoted : type.isDenotedBy reference = true) :
    reference.lookupNamespace = type.lookupNamespace := by
  fun_induction lookupNamespace type generalizing reference with
  | case1 dotted name assembly arguments =>
      rcases reference with ⟨_, _, _ | _, _, _⟩ | _ | _ | _ | _ <;>
        simp only [isDenotedBy, Bool.false_eq_true] at denoted
      simp only [Bool.and_eq_true, decide_eq_true_eq] at denoted
      exact denoted.1.1.symm
  | case2 dotted name assembly outer arguments ih =>
      rcases reference with ⟨_, _, _ | refOuter, _, _⟩ | _ | _ | _ | _ <;>
        simp only [isDenotedBy, Bool.false_eq_true] at denoted
      simp only [Bool.and_eq_true] at denoted
      have around := ih denoted.1.2
      exact around
  | case3 element rank ih =>
      cases reference <;> simp only [isDenotedBy, Bool.false_eq_true] at denoted
      simp only [Bool.and_eq_true] at denoted
      have inside := ih denoted.2
      exact inside
  | case4 target ih | case5 target ih =>
      cases reference <;> simp only [isDenotedBy, Bool.false_eq_true] at denoted
      have inside := ih denoted
      exact inside

/-- The name does not tell of assemblies, so it is that of the type's own reference. -/
theorem simpleName_of_isDenotedBy (denoted : type.isDenotedBy reference = true) :
    reference.simpleName = type.simpleName := by
  rw [simpleName, ← TypeRef.simpleName_withoutAssemblies reference,
    ← withoutAssemblies_eq_of_isDenotedBy type reference denoted, TypeRef.simpleName_withoutAssemblies]

/-- The quick test compares namespaces and names, and a reference that denotes a type agrees with it in both. So the
test refuses no reference that denotes the type. -/
theorem sharesNameWith_of_isDenotedBy (type : HostType) (reference : TypeRef) :
    (sharesNameWith (some type) (some reference) = true ↔
      reference.lookupNamespace = type.lookupNamespace ∧ reference.simpleName = type.simpleName) ∧
    (type.isDenotedBy reference = true →
      reference.lookupNamespace = type.lookupNamespace ∧ reference.simpleName = type.simpleName ∧
        sharesNameWith (some type) (some reference) = true) := by
  have tested : sharesNameWith (some type) (some reference) = true ↔
      reference.lookupNamespace = type.lookupNamespace ∧ reference.simpleName = type.simpleName := by
    simp only [sharesNameWith, Bool.and_eq_true, decide_eq_true_eq]
  refine ⟨tested, fun denoted => ?_⟩
  have sameNamespace := lookupNamespace_of_isDenotedBy denoted
  have sameName := simpleName_of_isDenotedBy denoted
  exact ⟨sameNamespace, sameName, tested.mpr ⟨sameNamespace, sameName⟩⟩

/-- References to planes of tabs of a shop menu, where a tab is of some type of goods. -/
def tabPlanes : HostType :=
  .byRef (.array (.named "" "Tab`1" none (some ((simple "Valley.Menus" "ShopMenu").inAssembly "Valley")) [int32]) 2)

/-- The reference to the planes records other assemblies. -/
theorem sharesNameWith_of_isDenotedBy_tabPlanes :
    let reference : TypeRef := .byRef (.array (.named ⟨"", "Tab`1", some ⟨"Valley.Menus", "ShopMenu", none, [], none⟩,
      [.named ⟨"System", "Int32", none, [], some "Core"⟩], some "Valley"⟩) 2)
    tabPlanes.isDenotedBy reference = true ∧ reference.lookupNamespace = "Valley.Menus" ∧
      reference.simpleName = "Tab`1[,]&" ∧ sharesNameWith (some tabPlanes) (some reference) = true := by
  intro reference
  have denoted : tabPlanes.isDenotedBy reference = true := by decide +kernel
  rcases (sharesNameWith_of_isDenotedBy tabPlanes reference).2 denoted with ⟨sameNamespace, sameName, passes⟩
  have named : tabPlanes.simpleName = "Tab`1[,]&" := by decide +kernel
  exact ⟨denoted, sameNamespace, sameName.trans named, passes⟩

end HostType

end CilRelink
