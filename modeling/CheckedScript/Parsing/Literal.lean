import CheckedScript.Ast.Expression
import CheckedScript.Grammar.Node
import CheckedScript.Number.Word
import CheckedScript.Parsing.Error

/-!
# Literals

The values of numbers, characters, strings and array literals, read from their concrete trees.
-/

namespace CheckedScript.Parsing

open Grammar

/-- Splits the sign from a numeral. -/
def splitSign : List Char → Bool × List Char
  | '-' :: digits => (true, digits)
  | digits => (false, digits)

/-- The integer that an optional minus sign and digits write. -/
def integerValue (numeral : List Char) : Int :=
  let (negative, digits) := splitSign numeral
  if negative then -(decimalNat digits : Int) else decimalNat digits

/-- The float nearest to what an optional minus sign and digits around a point write. -/
def floatValue (numeral : List Char) : Float :=
  let (negative, digits) := splitSign numeral
  let places := (digits.dropWhile (· != '.')).tail
  let magnitude :=
    Float.ofScientific (decimalNat (digits.takeWhile (· != '.') ++ places)) true places.length
  if negative then -magnitude else magnitude

/-- Digits, a point and digits, with an optional minus sign in front. -/
def isFloatNumeral (numeral : List Char) : Bool :=
  let digits := (splitSign numeral).2
  let whole := digits.takeWhile Char.isDigit
  match digits.dropWhile Char.isDigit with
  | '.' :: places => !whole.isEmpty && !places.isEmpty && places.all Char.isDigit
  | _ => false

def readInteger (n : Node) : Except ParseError Word :=
  match Word.ofInt? (integerValue n.characters) with
  | some value => .ok value
  | none => .error (.integerRange n.text n.span)

def readFloat (n : Node) : Except ParseError Float :=
  if isFloatNumeral n.characters then .ok (floatValue n.characters)
  else .error (.floatFormat n.text n.span)

/-- What a backslash and the character `c` stand for. -/
def escapeValue? : (c : Char) → Option Char
  | 'n' => some '\n'
  | 't' => some '\t'
  | 'r' => some '\r'
  | '0' => some '\x00'
  | '\\' => some '\\'
  | '"' => some '"'
  | '\'' => some '\''
  | _ => none

/-- Resolves the escapes of a quoted text, or returns the first one that stands for nothing. -/
def unescape : List Char → Except String (List Char)
  | [] => .ok []
  | '\\' :: c :: rest =>
    match escapeValue? c with
    | some value => (unescape rest).map (value :: ·)
    | none => .error (.ofList ['\\', c])
  | ['\\'] => .error "\\"
  | c :: rest => (unescape rest).map (c :: ·)

/-- The characters between the quotes of a string or a character literal. -/
def readQuoted (n : Node) : Except ParseError (List Char) :=
  match n.children with
  | content :: _ => (unescape content.characters).mapError (.unknownEscape · n.span)
  | [] => .error (.malformed "a character" none n.span)

def readString (n : Node) : Except ParseError String := (readQuoted n).map .ofList

def readChar (n : Node) : Except ParseError Char := do
  match ← readQuoted n with
  | [c] => .ok c
  | _ => .error (.unknownEscape (.join (n.children.map Node.text)) n.span)

def readNumberElement (n : Node) : Except ParseError NumberLiteral :=
  if n.characters.contains '.' then (readFloat n).map .float else (readInteger n).map .int

end CheckedScript.Parsing
