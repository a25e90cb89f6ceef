import CheckedScript.Grammar.Rule
import CheckedScript.Source.Cursor
import CheckedScript.Source.Span

/-!
# Concrete syntax trees

A node records one match of a rule: where it starts and stops, and the matches inside it.
-/

namespace CheckedScript.Grammar

inductive Node where
  | mk (rule : Rule) (start stop : Cursor) (children : List Node)

namespace Node

def rule : Node → Rule
  | mk rule _ _ _ => rule

def start : Node → Cursor
  | mk _ start _ _ => start

def stop : Node → Cursor
  | mk _ _ stop _ => stop

def children : Node → List Node
  | mk _ _ _ children => children

def span (n : Node) : Span := .between n.start.position n.stop.position

/-- The source text that the node covers. -/
def characters (n : Node) : List Char := n.start.textUpTo n.stop

def text (n : Node) : String := .ofList n.characters

end Node

end CheckedScript.Grammar
