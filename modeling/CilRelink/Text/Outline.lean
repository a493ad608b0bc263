import CilRelink.Text.Quoted

/-!
# Outlines of values

Some messages show a whole value: its constructor's name and, in order, its parts. An outline is the tree of
names and parts; `Outline.text` writes it on one line.
-/
namespace CilRelink.Text

/-- What a message shows of a value. -/
inductive Outline where
  /-- A word that stands for itself: a number, a flag, a constructor without parts. -/
  | word (text : String)
  /-- A constructor with unnamed parts. -/
  | tagged (tag : String) (parts : List Outline)
  /-- A constructor with named parts. -/
  | fields (tag : String) (parts : List (String × Outline))
  /-- A constructor of which only the parts listed are shown. -/
  | someFields (tag : String) (parts : List (String × Outline))
  /-- A sequence. -/
  | items (parts : List Outline)

namespace Outline

/-- A string. -/
def string (text : String) : Outline := .word (quotedString text)

/-- A natural number. -/
def nat (number : Nat) : Outline := .word (toString number)

/-- A truth value. -/
def bool (value : Bool) : Outline := .word (if value then "true" else "false")

/-- A part that may be absent. -/
def optional (outline : α → Outline) : Option α → Outline
  | none => .word "None"
  | some value => .tagged "Some" [outline value]

/-- A sequence of values. -/
def listOf (outline : α → Outline) (values : List α) : Outline := .items (values.map outline)

mutual

/-- The outline on one line. -/
def text : Outline → String
  | .word shown => shown
  | .tagged tag parts => tag ++ "(" ++ ", ".intercalate (texts parts) ++ ")"
  | .fields tag parts => tag ++ " \x7b " ++ ", ".intercalate (fieldTexts parts) ++ " \x7d"
  | .someFields tag parts => tag ++ " \x7b " ++ ", ".intercalate (fieldTexts parts) ++ ", .. \x7d"
  | .items parts => "[" ++ ", ".intercalate (texts parts) ++ "]"

/-- The texts of several parts. -/
def texts : List Outline → List String
  | [] => []
  | part :: parts => part.text :: texts parts

/-- The texts of several named parts. -/
def fieldTexts : List (String × Outline) → List String
  | [] => []
  | (name, part) :: parts => (name ++ ": " ++ part.text) :: fieldTexts parts

end

end Outline

end CilRelink.Text
