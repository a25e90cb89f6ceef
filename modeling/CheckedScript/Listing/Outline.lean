/-!
# Outlines

The layout of nested records and lists with one thing on each line. What a group holds stands four
columns further in than the group, each of it followed by a comma.
-/

namespace CheckedScript.Listing

inductive Outline where
  | leaf (text : String)
  /-- Items between an opening and a closing text. -/
  | group (opening : String) (items : List Outline) (closing : String)
  | labelled (label : String) (value : Outline)

namespace Outline

def record (name : String) (fields : List (String × Outline)) : Outline :=
  .group (name ++ " \x7b") (fields.map fun (label, value) => .labelled label value) "\x7d"

/-- A value marked by the name of its kind. -/
def tagged (name : String) (value : Outline) : Outline := .group (name ++ "(") [value] ")"

/-- A list. An empty one takes a single line. -/
def items : List Outline → Outline
  | [] => .leaf "[]"
  | first :: rest => .group "[" (first :: rest) "]"

def optional : Option Outline → Outline
  | none => .leaf "None"
  | some value => tagged "Some" value

def margin (indent : Nat) : String := .ofList (List.replicate indent ' ')

mutual

/-- The text of an outline whose first line starts at column `indent`. -/
def render (indent : Nat) : Outline → String
  | .leaf text => text
  | .group opening items closing =>
    opening ++ "\n" ++ renderItems (indent + 4) items ++ margin indent ++ closing
  | .labelled label value => label ++ ": " ++ value.render indent

/-- The lines of the items of a group. -/
def renderItems (indent : Nat) : List Outline → String
  | [] => ""
  | item :: rest =>
    margin indent ++ item.render indent ++ ",\n" ++ renderItems indent rest

end

end Outline

end CheckedScript.Listing
