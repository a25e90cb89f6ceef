import CheckedScript.Proofs.Check.Placement
import CheckedScript.Proofs.Check.Rules

/-!
# Names that a part of a program takes from outside

A name is free in a part of a program if it stands for what is bound around that part: it is
referred to where no declaration inside the part binds it. A check without errors has found every
free name.
-/

namespace CheckedScript

mutual

/-- The names that an expression refers to; it binds none. -/
def Expression.names : Expression → List String
  | .identifier name _ => [name.name]
  | .index array position _ => array.name :: position.names
  | .fieldAccess record _ _ => [record.name]
  | .call name arguments _ => name.name :: Expression.listNames arguments
  | .unary _ operand _ => operand.names
  | .binary _ left right _ => left.names ++ right.names
  | .parenthesized inner _ => inner.names
  | _ => []

def Expression.listNames : List Expression → List String
  | [] => []
  | e :: rest => e.names ++ Expression.listNames rest

end

def Expression.optionNames : Option Expression → List String
  | none => []
  | some e => e.names

mutual

def Statement.freeNames : Statement → List String
  | .variable _ _ initializer _ => Expression.optionNames initializer
  | .assignment name value _ => name.name :: value.names
  | .fieldAssignment record _ value _ => record.name :: value.names
  | .function name parameters _ body _ =>
    body.freeNames.filter fun n => !(name.name :: parameters.map (·.name.name)).contains n
  | .block body _ => body.freeNames
  | .conditional branches none _ => Branch.listFreeNames branches
  | .conditional branches (some otherwise) _ =>
    Branch.listFreeNames branches ++ otherwise.freeNames
  | .while condition body _ => condition.names ++ body.freeNames
  | .return value _ => Expression.optionNames value
  | .print value _ => value.names
  | .attempt guarded recovery _ =>
    guarded.freeNames ++ recovery.freeNames.filter (· != errorAccessor)
  | .recordInstance type _ _ => [type.name]
  | .expression value _ => value.names
  | .break _ | .continue _ | .recordType .. => []

def Block.freeNames : Block → List String
  | .mk statements _ => Statement.listFreeNames statements

/-- What a statement declares is bound in those that follow it. -/
def Statement.listFreeNames : List Statement → List String
  | [] => []
  | statement :: rest =>
    statement.freeNames ++ (Statement.listFreeNames rest).filter fun n =>
      some n != statement.declaredName?

def Branch.listFreeNames : List Branch → List String
  | [] => []
  | .mk condition body _ :: rest =>
    condition.names ++ body.freeNames ++ Branch.listFreeNames rest

end

/-- The names that a call of the function looks up in the global scope. -/
def FunctionSymbol.freeNames (f : FunctionSymbol) : List String :=
  f.body.freeNames.filter fun n => !(f.parameters.map (·.name)).contains n

namespace Store

variable {s : Store} {name : String}

theorem isSome_lookup?_of_isErrorAccessor (accessor : s.isErrorAccessor name = true) :
    (s.lookup? name).isSome = true := by
  unfold isErrorAccessor resolvingKind? at accessor
  cases resolved : s.resolve? name with
  | none => simp [resolved] at accessor
  | some scope => exact isSome_lookup?_of_resolve? resolved

end Store

namespace Check

open Checking

section

variable {store : Store} {c : CheckContext}

mutual

/-- An expression without errors refers to bound names. -/
theorem isSome_lookup?_of_types : (e : Expression) → {type : Ty} → Types store c e type →
    ∀ name ∈ e.names, (store.lookup? name).isSome = true
  | .identifier name _, _, typed => by
    intro other listed
    rw [List.mem_singleton.mp listed]
    rcases types_identifier typed with ⟨accessor, -⟩ | ⟨value, found⟩
    · exact Store.isSome_lookup?_of_isErrorAccessor accessor
    · exact Option.isSome_of_eq_some found
  | .index array position _, _, typed => by
    obtain ⟨index, value, found⟩ := types_index typed
    intro name listed
    rcases List.mem_cons.mp listed with rfl | inner
    · exact Option.isSome_of_eq_some found
    · exact isSome_lookup?_of_types position index name inner
  | .fieldAccess record field _, _, typed => by
    unfold Types typeOf at typed
    obtain ⟨r, slot, found, -⟩ := gives_typeOfField typed
    intro name listed
    rw [List.mem_singleton.mp listed]
    exact Option.isSome_of_eq_some found
  | .call name arguments _, _, typed => by
    intro other listed
    cases accessor : arguments.isEmpty && store.isErrorAccessor name.name with
    | true =>
      rw [Bool.and_eq_true] at accessor
      rw [List.isEmpty_iff.mp accessor.1] at listed
      rw [List.mem_singleton.mp listed]
      exact Store.isSome_lookup?_of_isErrorAccessor accessor.2
    | false =>
      obtain ⟨f, found, -, fits⟩ := types_call accessor typed
      rcases List.mem_cons.mp listed with rfl | inner
      · exact Option.isSome_of_eq_some found
      · exact isSome_lookup?_of_forall₂ arguments fits other inner
  | .unary _ operand _, _, typed => by
    obtain ⟨found, known, -⟩ := types_unary typed
    exact isSome_lookup?_of_types operand known
  | .binary _ left right _, _, typed => by
    obtain ⟨found, found', known, known', -⟩ := types_binary typed
    intro name listed
    rcases List.mem_append.mp listed with first | second
    · exact isSome_lookup?_of_types left known name first
    · exact isSome_lookup?_of_types right known' name second
  | .parenthesized inner _, _, typed => by
    unfold Types typeOf at typed
    exact isSome_lookup?_of_types inner typed
  | .integer .., _, _ | .float .., _, _ | .str .., _, _ | .char .., _, _ | .boolean .., _, _
  | .numberArray .., _, _ | .charArray .., _, _ | .strArray .., _, _ => nofun

theorem isSome_lookup?_of_forall₂ : (es : List Expression) → {parameters : List FunctionParameter} →
    List.Forall₂ (fun e (p : FunctionParameter) => Types store c e p.type) es parameters →
    ∀ name ∈ Expression.listNames es, (store.lookup? name).isSome = true
  | [], _, _ => nofun
  | e :: rest, _, .cons typed fits => by
    intro name listed
    rcases List.mem_append.mp listed with first | later
    · exact isSome_lookup?_of_types e typed name first
    · exact isSome_lookup?_of_forall₂ rest fits name later

end

end

/-- What the check of a statement has bound is bound by the statement or was bound before. -/
theorem isSome_lookup?_before {c : CheckContext} {statement : Statement} {s : Checking}
    {name : String} (other : some name ≠ statement.declaredName?)
    (found : ((checkStatement c statement s).store.lookup? name).isSome = true) :
    (s.store.lookup? name).isSome = true := by
  obtain ⟨added, grown, only⟩ := declares_checkStatement c statement s
  have outside : name ∉ added.bindings.names := by
    rw [Declarations.names_bindings]
    intro inside
    obtain ⟨d, present, same⟩ := List.mem_map.mp inside
    exact other ((only d present).trans (congrArg some same)).symm
  rwa [grown.scopes.lookup?, Store.lookup?_extend_of_not_mem outside] at found

mutual

/-- Inside a block, a check without errors has found the free names of a statement. -/
theorem isSome_lookup?_of_clean : (statement : Statement) → {c : CheckContext} → {s : Checking} →
    c.isTopLevel = false → (checkStatement c statement s).Clean →
    ∀ name ∈ statement.freeNames, (s.store.lookup? name).isSome = true
  | .variable _ _ none _, _, _, _, _ => nofun
  | .variable _ _ (some e) _, _, _, _, clean => by
    unfold checkStatement at clean
    exact isSome_lookup?_of_types e (types_of_clean_declaration clean)
  | .assignment name value _, _, _, _, clean => by
    unfold checkStatement at clean
    obtain ⟨type, held, found, typed⟩ := of_clean_assignment clean
    intro other listed
    rcases List.mem_cons.mp listed with rfl | inner
    · exact Option.isSome_of_eq_some found
    · exact isSome_lookup?_of_types value typed other inner
  | .fieldAssignment record field value _, _, _, _, clean => by
    unfold checkStatement at clean
    obtain ⟨r, slot, found, -, typed⟩ := of_clean_fieldAssignment clean
    intro other listed
    rcases List.mem_cons.mp listed with rfl | inner
    · exact Option.isSome_of_eq_some found
    · exact isSome_lookup?_of_types value typed other inner
  | .function .., _, _, nested, clean => by
    cases registration?_eq_none_of_nested nested clean
  | .recordType .., _, _, _, _ => nofun
  | .recordInstance type name _, _, _, _, clean => by
    unfold checkStatement at clean
    obtain ⟨r, found⟩ := of_clean_recordInstance clean
    intro other listed
    rw [List.mem_singleton.mp listed]
    exact Option.isSome_of_eq_some found
  | .block (.mk statements _) _, _, s, _, clean => by
    intro name listed
    have found := isSome_lookup?_of_cleanStatements statements rfl (clean_block clean) name listed
    exact Store.lookup?_push s.store "block" .block name nofun ▸ found
  | .conditional branches none _, _, _, nested, clean =>
    isSome_lookup?_of_cleanBranches branches nested (clean_branches clean)
  | .conditional branches (some (.mk statements _)) _, c, s, nested, clean => by
    intro name listed
    rcases List.mem_append.mp listed with first | last
    · exact isSome_lookup?_of_cleanBranches branches nested (clean_branches clean) name first
    · have found := isSome_lookup?_of_cleanStatements statements rfl (clean_otherwise clean) name
        last
      rw [← (grows_checkBranches c branches s).sameScopes.lookup?]
      exact Store.lookup?_push _ "else" .branch name nofun ▸ found
  | .while condition (.mk statements _) _, c, s, _, clean => by
    intro name listed
    rcases List.mem_append.mp listed with first | inside
    · exact isSome_lookup?_of_types condition
        (types_of_clean_condition (clean_loopCondition clean)) name first
    · have found := isSome_lookup?_of_cleanStatements statements rfl (clean_loopBody clean) name
        inside
      rw [← (grows_condition s c "While" condition).sameScopes.lookup?]
      exact Store.lookup?_push _ "while" .loop name nofun ▸ found
  | .break _, _, _, _, _ | .continue _, _, _, _, _ | .return none _, _, _, _, _ => nofun
  | .return (some e) _, _, _, _, clean => by
    unfold checkStatement at clean
    obtain ⟨f, -, typed⟩ := of_clean_returning clean
    exact isSome_lookup?_of_types e (typed e rfl)
  | .print value _, _, _, _, clean => by
    unfold checkStatement at clean
    dsimp only at clean
    split at clean
    · exact absurd clean (not_clean_report rfl)
    · obtain ⟨-, type, typed⟩ := types_of_clean_typeOf clean
      exact isSome_lookup?_of_types value typed
  | .attempt (.mk guarded span) (.mk recovery _) _, c, s, _, clean => by
    intro name listed
    rcases List.mem_append.mp listed with first | last
    · have found := isSome_lookup?_of_cleanStatements guarded rfl (clean_guarded clean) name first
      exact Store.lookup?_push s.store "try" .guarded name nofun ▸ found
    · obtain ⟨inside, other⟩ := List.mem_filter.mp last
      have found := isSome_lookup?_of_cleanStatements recovery rfl (clean_recovery clean) name
        inside
      -- The recover block binds only the error accessor, which is not a free name of it.
      rw [bindErrorAccessor_push, Store.lookup?_extend_of_not_mem
        (by simpa [Bindings.names] using other)] at found
      rw [← (grows_scopedBlock c.inBlock (.mk guarded span) s "try" .guarded).sameScopes.lookup?]
      exact Store.lookup?_push _ "recover" .recovery name nofun ▸ found
  | .expression value _, _, _, _, clean => by
    unfold checkStatement at clean
    obtain ⟨-, type, typed⟩ := types_of_clean_typeOf clean
    exact isSome_lookup?_of_types value typed

theorem isSome_lookup?_of_cleanStatements : (statements : List Statement) → {c : CheckContext} →
    {s : Checking} → c.isTopLevel = false → (checkStatements c statements s).Clean →
    ∀ name ∈ Statement.listFreeNames statements, (s.store.lookup? name).isSome = true
  | [], _, _, _, _ => nofun
  | statement :: rest, c, s, nested, clean => by
    unfold checkStatements at clean
    intro name listed
    rcases List.mem_append.mp listed with first | later
    · exact isSome_lookup?_of_clean statement nested ((continues_checkStatements ..).clean clean)
        name first
    · obtain ⟨inside, other⟩ := List.mem_filter.mp later
      exact isSome_lookup?_before (by simpa using other)
        (isSome_lookup?_of_cleanStatements rest nested clean name inside)

theorem isSome_lookup?_of_cleanBranches : (branches : List Branch) → {c : CheckContext} →
    {s : Checking} → c.isTopLevel = false → (checkBranches c branches s).Clean →
    ∀ name ∈ Branch.listFreeNames branches, (s.store.lookup? name).isSome = true
  | [], _, _, _, _ => nofun
  | .mk condition (.mk statements span) _ :: rest, c, s, nested, clean => by
    have tested := grows_condition s c "If" condition
    intro name listed
    rcases List.mem_append.mp listed with first | later
    · rcases List.mem_append.mp first with test | inside
      · exact isSome_lookup?_of_types condition
          (types_of_clean_condition (clean_branchCondition clean)) name test
      · have found := isSome_lookup?_of_cleanStatements statements rfl (clean_branchBody clean)
          name inside
        rw [← tested.sameScopes.lookup?]
        exact Store.lookup?_push _ "if" .branch name nofun ▸ found
    · unfold checkBranches at clean
      have found := isSome_lookup?_of_cleanBranches rest nested clean name later
      rwa [(grows_scopedBlock ..).sameScopes.lookup?, tested.sameScopes.lookup?] at found

end

end Check

end CheckedScript
