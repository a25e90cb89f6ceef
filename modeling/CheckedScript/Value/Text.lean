import CheckedScript.Decimal.Layout
import CheckedScript.Text.Quoted
import CheckedScript.Value.Basic

/-!
# Printing values

The text that `print` writes for a value. Text inside an array is quoted, so that its commas and
brackets cannot be mistaken for the array's own.
-/

namespace CheckedScript.Value

def boolText (b : Bool) : String := if b then "true" else "false"

mutual

def text : Value → String
  | int w => toString w.toInt
  | float x => Decimal.plain x
  | str s => s
  | char c => .singleton c
  | bool b => boolText b
  | array elements => "[" ++ ", ".intercalate (elementTexts elements) ++ "]"
  | null => "null"

/-- The texts of the elements of an array. -/
def elementTexts : List Value → List String
  | [] => []
  | str s :: rest => Text.quoteString s :: elementTexts rest
  | char c :: rest => Text.quoteChar c :: elementTexts rest
  | other :: rest => other.text :: elementTexts rest

end

end CheckedScript.Value
