/-!
# Scope history

A record of every scope that was opened, of which only the latest are kept. Records are stored with
the newest first and are thinned out once there are twice as many as are kept, so that opening a
scope takes constant time on average.
-/

namespace CheckedScript

/-- The construct that a scope was opened for. -/
inductive ScopeKind where
  | global
  | function
  | block
  | loop
  | branch
  | guarded
  | recovery
deriving DecidableEq, Inhabited

def ScopeKind.text : ScopeKind → String
  | .global => "Global"
  | .function => "Function"
  | .block => "Block"
  | .loop => "Loop"
  | .branch => "Branch"
  | .guarded => "Guarded"
  | .recovery => "Recovery"

/-- What is remembered of a scope; its names are filled in when it closes. -/
structure ScopeRecord where
  id : Nat
  name : String
  kind : ScopeKind
  depth : Nat
  names : List String
  closed : Bool
deriving DecidableEq, Inhabited

structure History where
  limit : Nat
  newest : List ScopeRecord
  size : Nat
deriving DecidableEq, Inhabited

namespace History

def empty (limit : Nat) : History := ⟨limit, [], 0⟩

def push (h : History) (r : ScopeRecord) : History :=
  if h.size < 2 * h.limit then { h with newest := r :: h.newest, size := h.size + 1 }
  else { h with newest := r :: h.newest.take h.limit, size := min h.size h.limit + 1 }

/-- Marks the newest record with this id as closed. -/
def closeIn (id : Nat) (names : List String) : List ScopeRecord → List ScopeRecord
  | [] => []
  | r :: rest =>
    if r.id = id then { r with names := names, closed := true } :: rest
    else r :: closeIn id names rest

def close (h : History) (id : Nat) (names : List String) : History :=
  { h with newest := closeIn id names h.newest }

/-- The records that are kept, the oldest first. -/
def toList (h : History) : List ScopeRecord := (h.newest.take h.limit).reverse

end History

end CheckedScript
