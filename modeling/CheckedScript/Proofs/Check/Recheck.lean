import CheckedScript.Proofs.Check.Dependence

/-!
# Checking a registered function again

A function whose body was accepted passes its check again wherever its free names are declared as
they were, and nowhere where one of them is unbound.
-/

namespace CheckedScript

open Check Checking

namespace Checking

/-- Parameters of distinct names are declared without an error. -/
theorem clean_foldl_rebind {span : Span} {parameters : List FunctionParameter} {s : Checking}
    (clean : s.Clean) (distinct : (parameters.map (·.name)).Nodup)
    (fresh : ∀ p ∈ parameters, p.name ∉ s.store.current.symbols.names) :
    (parameters.foldl (rebind span) s).Clean := by
  induction parameters generalizing s with
  | nil => exact clean
  | cons p rest ih =>
    obtain ⟨apart, later⟩ := List.nodup_cons.mp distinct
    have free := Bindings.contains_eq_false_iff.mpr (fresh p List.mem_cons_self)
    have declared : s.declare ⟨p.name, span⟩ (.variable p.type p.type.defaultValue) false = _ :=
      declare_of_fresh (.variable p.type p.type.defaultValue) false free
    rw [List.foldl_cons, rebind, declared]
    refine ih clean later fun q inside => ?_
    show q.name ∉ Bindings.names (Store.current (s.store.extend _)).symbols
    rw [Store.current_extend, Scope.mem_names_extend_iff, not_or]
    exact ⟨fresh q (List.mem_cons_of_mem _ inside), fun same =>
      apart (List.mem_map.mpr ⟨q, inside, List.mem_singleton.mp same⟩)⟩

end Checking

variable {f : FunctionSymbol} {store : Store}

theorem FunctionSymbol.names_parameterBindings (f : FunctionSymbol) :
    f.parameterBindings.names = f.parameters.map (·.name) := by
  simp [parameterBindings, Bindings.names]

theorem FunctionSymbol.mem_freeNames_iff {name : String} :
    name ∈ f.freeNames ↔
      name ∈ Statement.listFreeNames f.body.statements ∧ name ∉ f.parameterBindings.names := by
  have inBody : f.body.freeNames = Statement.listFreeNames f.body.statements := by
    cases f.body
    rfl
  simp [freeNames, inBody, names_parameterBindings]

theorem clean_opening_of_distinct (store : Store) (distinct : f.parameterBindings.names.Nodup) :
    (f.opening store).Clean := by
  rw [f.names_parameterBindings] at distinct
  exact clean_foldl_rebind rfl distinct fun p inside => List.not_mem_nil

theorem Check.Point.IsBodyOf.clean {p : Point} (body : p.IsBodyOf f) (accepted : p.Accepted) :
    (checkStatements f.context f.body.statements p.checking).Clean := by
  rw [show p = ⟨p.context, p.checking, p.task⟩ from rfl, body.context, body.task] at accepted
  exact accepted

/-- An accepted body is accepted wherever its free names are declared alike. -/
theorem clean_recheck_of_isBodyOf {p : Point} (body : p.IsBodyOf f) (accepted : p.Accepted)
    (onlyGlobal : store.locals = []) (kind : store.global.kind = p.checking.store.global.kind)
    (alike : ∀ name ∈ f.freeNames,
      store.global.declaration? name = p.checking.store.global.declaration? name) :
    (f.recheck store).Clean := by
  obtain ⟨scope, locals, function, symbols⟩ := body.scope
  have opened := clean_opening_of_distinct store body.distinct
  obtain ⟨again, global⟩ := isBodyOf_known onlyGlobal opened
  obtain ⟨scope', locals', function', symbols'⟩ := again.scope
  rw [FunctionSymbol.recheck, checkBlock_eq]
  have inside := body.clean accepted
  refine cleanStatements_of_matches f.body.statements rfl (by simp [locals]) ⟨?_, ?_, ?_⟩ inside
    opened
  · rw [locals, locals']
    simp [Scope.outline, function, function', symbols, symbols']
  · rw [global, kind]
  -- A name that is not local in the body is no parameter, so it is free in the function.
  · intro name free outside
    rw [global]
    refine alike name (FunctionSymbol.mem_freeNames_iff.mpr ⟨free, fun bound => ?_⟩)
    rw [← symbols, ← Bindings.contains_eq_true_iff] at bound
    rw [locals, Store.findLocal?, if_pos bound] at outside
    cases outside

/-- A function that passes its check again passes it wherever its free names are declared alike. -/
theorem clean_recheck_of_alike {s t : Store} (clean : (f.recheck s).Clean)
    (onlyGlobal : s.locals = []) (onlyGlobal' : t.locals = []) (kind : t.global.kind = s.global.kind)
    (alike : ∀ name ∈ f.freeNames, t.global.declaration? name = s.global.declaration? name) :
    (f.recheck t).Clean := by
  obtain ⟨body, global⟩ := isBodyOf_known onlyGlobal (clean_opening clean)
  refine clean_recheck_of_isBodyOf body ?_ onlyGlobal' ?_ ?_
  · rw [FunctionSymbol.recheck, checkBlock_eq] at clean
    exact clean
  · rw [kind, global]
  · rw [global]
    exact alike

/-- An accepted body has found its free names in the global scope. -/
theorem contains_of_isBodyOf {p : Point} (body : p.IsBodyOf f) (accepted : p.Accepted) :
    ∀ name ∈ f.freeNames, p.checking.store.global.symbols.contains name = true := by
  obtain ⟨scope, locals, function, symbols⟩ := body.scope
  have inside := body.clean accepted
  intro name free
  obtain ⟨used, other⟩ := FunctionSymbol.mem_freeNames_iff.mp free
  refine Store.contains_global_of_lookup?
    (isSome_lookup?_of_cleanStatements f.body.statements rfl inside name used) ?_
  have unbound : ¬ scope.symbols.contains name = true := by
    rw [symbols, Bindings.contains_eq_true_iff]
    exact other
  rw [locals, Store.findLocal?, if_neg unbound, if_pos function]

/-- A function whose free names are not all bound does not pass its check again. -/
theorem contains_of_clean_recheck (clean : (f.recheck store).Clean) (onlyGlobal : store.locals = []) :
    ∀ name ∈ f.freeNames, store.global.symbols.contains name = true := by
  obtain ⟨body, global⟩ := isBodyOf_known onlyGlobal (clean_opening clean)
  rw [FunctionSymbol.recheck, checkBlock_eq] at clean
  have found := contains_of_isBodyOf body clean
  rwa [global] at found

end CheckedScript
