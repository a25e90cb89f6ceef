/-!
# Nested lists

The layout of nested lists: a list stands on one line if it is narrow, and otherwise puts every item
on a line of its own, two columns further in.
-/

namespace CheckedScript.Listing

inductive SExpr where
  | atom (text : String)
  /-- Words between parentheses that always stay on one line. -/
  | flat (words : List String)
  /-- A head and items that may be broken over lines. -/
  | list (head : String) (items : List SExpr)

/-- A list whose head and items fill this many bytes, or that has a broken item, is broken. -/
def lineWidth : Nat := 60

def parenthesize (text : String) : String := "(" ++ text ++ ")"

/-- The bytes that a head and the items after it fill on one line. -/
def widthOf (head : String) (items : List String) : Nat :=
  head.utf8ByteSize + (items.map fun item => item.utf8ByteSize + 1).foldr (· + ·) 0

def fitsOnLine (head : String) (items : List String) : Bool :=
  decide (widthOf head items < lineWidth) && items.all fun item => !item.toList.contains '\n'

/-- A line break and the blanks that the next line starts with. -/
def lineBreak (indent : Nat) : String := .ofList ('\n' :: List.replicate indent ' ')

/-- Sets a head and its items, which are set already, at a column. -/
def layout (head : String) (items : List String) (indent : Nat) : String :=
  let separator := if fitsOnLine head items then " " else lineBreak (indent + 2)
  parenthesize (items.foldl (fun front item => front ++ separator ++ item) head)

mutual

def SExpr.render (indent : Nat) : SExpr → String
  | .atom text => text
  | .flat words => parenthesize (" ".intercalate words)
  | .list head items => layout head (renderAll (indent + 2) items) indent

def renderAll (indent : Nat) : List SExpr → List String
  | [] => []
  | item :: rest => item.render indent :: renderAll indent rest

end

end CheckedScript.Listing
