import CheckedScript.Store.Basic

/-!
# Where a statement stands

The constructs around a statement that decide which statements and names it may use.
-/

namespace CheckedScript

/-- The function that a statement belongs to. -/
structure FunctionContext where
  name : String
  returnType : Ty
deriving DecidableEq, Inhabited

structure CheckContext where
  function : Option FunctionContext
  loopDepth : Nat
  recoverDepth : Nat
  /-- The number of blocks around a statement, a function body included. -/
  nesting : Nat
deriving DecidableEq, Inhabited

namespace CheckContext

/-- The context of the statements of a program. -/
def topLevel : CheckContext := ⟨none, 0, 0, 0⟩

def isTopLevel (c : CheckContext) : Bool := c.nesting == 0

def inLoop (c : CheckContext) : Bool := decide (0 < c.loopDepth)

def inRecovery (c : CheckContext) : Bool := decide (0 < c.recoverDepth)

def inBlock (c : CheckContext) : CheckContext := { c with nesting := c.nesting + 1 }

def inLoopBody (c : CheckContext) : CheckContext :=
  { c with loopDepth := c.loopDepth + 1, nesting := c.nesting + 1 }

def inRecoverBlock (c : CheckContext) : CheckContext :=
  { c with recoverDepth := c.recoverDepth + 1, nesting := c.nesting + 1 }

/-- The loops and recover blocks around a function do not count inside it. -/
def inFunction (c : CheckContext) (function : FunctionContext) : CheckContext :=
  ⟨some function, 0, 0, c.nesting + 1⟩

end CheckContext

/-- The name that holds the message of the error that the enclosing recover block has caught. -/
def errorAccessor : String := "get_error"

namespace Store

/-- Binds the error accessor globally, unless the name is bound already. -/
def registerBuiltins (s : Store) : Store :=
  match s.defineGlobal errorAccessor (.variable .str .null) with
  | .ok s => s
  | .error _ => s

/-- Whether `name` means the caught message here, and not a variable of the program. -/
def isErrorAccessor (s : Store) (name : String) : Bool :=
  name == errorAccessor &&
    match s.resolvingKind? name with
    | some .global | some .recovery => true
    | _ => false

end Store

end CheckedScript
