import CilRelink.Text.Outline

/-!
# Settings

How much a rewriter trusts and how it treats what it cannot repair.
-/
namespace CilRelink

open Text (Outline)

/-- The settings of a rewriter. -/
structure Settings where
  /-- Bodies may be rewritten at the same time. The result does not depend on it. -/
  parallel : Bool
  /-- References that merely resemble a mapped one are rewritten too. -/
  allowHeuristic : Bool
  /-- A binary with a broken reference is rejected. -/
  rejectIncompatible : Bool
  /-- Bodies are checked before anything is done to them. -/
  validateFirst : Bool
deriving DecidableEq

namespace Settings

/-- Nothing is rewritten or accepted that is not certain. -/
def strict : Settings := ⟨true, false, true, true⟩

/-- As much as possible is rewritten, and the rest reported. -/
def lenient : Settings := ⟨true, true, false, false⟩

/-- Strict, one body after the other. -/
def sequential : Settings := { strict with parallel := false }

/-- The settings in outlines of values. -/
def outline (settings : Settings) : Outline :=
  .fields "RewriteConfig"
    [("parallel", .bool settings.parallel), ("allow_heuristic_matches", .bool settings.allowHeuristic),
      ("reject_on_incompatible", .bool settings.rejectIncompatible),
      ("validate_before_rewrite", .bool settings.validateFirst)]

end Settings

end CilRelink
