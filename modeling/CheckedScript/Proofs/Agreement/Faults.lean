import CheckedScript.Proofs.Agreement.Soundness
import CheckedScript.Proofs.Execution.Origin

/-!
# What may still go wrong

The faults that a program can raise although it has passed its check. Each depends on a value that
the check does not know: on an unset field, on the bounds of an array or of an integer, or on the
limits of the run.
-/

namespace CheckedScript

open Check Checking Execution Run

/-- The faults of programs that do not pass their check, and those of the interpreter itself. -/
def Fault.isStatic : Fault → Bool
  | .undefinedVariable _ | .undefinedFunction _ | .notAFunction _ _ | .notAValue _ _
  | .fieldNotFound _ _ | .notARecord _ | .arityMismatch _ _ _ | .controlFlowEscaped _ _
  | .internal _ => true
  | _ => false

/-- A fault that a task of a checked program may raise itself. -/
inductive Foreseen (V : Ty → Value → Prop) : Moment → Fault → Prop
  | index {x : Moment} {v : Value} (fits : V .int v) (wrong : ∀ w, v ≠ .int w) :
      Foreseen V x (.invalidIndex v.kindName)
  | bounds {x : Moment} {name : String} {index : Int} {length : Nat} :
      Foreseen V x (.indexOutOfBounds name index length)
  | element {x : Moment} {name : String} {type : Ty} {value : Value}
      (found : x.perform.2.store.lookup? name = some (.variable (.array type) value))
      (fits : V (.array type) value) (wrong : ∀ elements, value ≠ .array elements) :
      Foreseen V x (.notAnArray name)
  | unary {fuel : Nat} {a : Activation} {m m₁ : Machine} {operator : UnaryOperator}
      {operand : Expression} {found type : Ty} {v : Value} {fault : Fault} {span : Span}
      (known : evaluate fuel a operand m = (.ok v, m₁))
      (gives : (typeOfUnary operator found operand.span).Gives type) (fits : V found v)
      (refused : Value.applyUnary operator v = .error fault) :
      Foreseen V ⟨fuel + 1, a, .evaluate (.unary operator operand span), m⟩ fault
  | binary {fuel : Nat} {a : Activation} {m m₁ m₂ : Machine} {operator : BinaryOperator}
      {left right : Expression} {found found' type : Ty} {v w : Value} {fault : Fault} {span : Span}
      (known : evaluate fuel a left m = (.ok v, m₁))
      (known' : evaluate fuel a right m₁ = (.ok w, m₂))
      (gives : (typeOfBinary operator (some found) (some found') span).Gives type)
      (fits : V found v) (fits' : V found' w)
      (refused : Value.applyBinary operator v w = .error fault) :
      Foreseen V ⟨fuel + 1, a, .evaluate (.binary operator left right span), m⟩ fault
  | truth {x : Moment} {v : Value} (fits : V .bool v) (wrong : ∀ b, v ≠ .bool b) :
      Foreseen V x (.typeMismatch "bool" v.kindName)
  | depth {x : Moment} {maxDepth : Nat} : Foreseen V x (.stackOverflow maxDepth)
  | limit {x : Moment} {limit : LoopLimit} : Foreseen V x (.loopLimitExceeded limit)

section

variable {V : Ty → Value → Prop} {program : Program} {store : Store} {fuel : Nat}
  {a : Activation} {m m₁ m₂ : Machine} {c : CheckContext} {s : Checking} {span : Span}
  {u : Unwind}

theorem not_readVariable_error {name : Identifier} {type : Ty}
    (found : ∃ value, m.store.lookup? name.name = some (.variable type value)) :
    readVariable a name m ≠ (.error u, m₁) := by
  obtain ⟨value, found⟩ := found
  rw [readVariable_apply, found]
  exact nofun

theorem not_readField_error {record field : Identifier} {type : Ty}
    (found : ∃ r value, m.store.lookup? record.name = some (.recordInstance r) ∧
      r.fields.find? field.name = some ⟨type, value⟩) :
    readField a record field m ≠ (.error u, m₁) := by
  obtain ⟨r, value, found, present⟩ := found
  rw [readField_apply, found]
  dsimp only
  rw [present]
  exact nofun

theorem not_define_error {name : String} {symbol : Symbol}
    (fresh : m.store.current.symbols.contains name = false) :
    define a name symbol span m ≠ (.error u, m₁) := by
  rw [define_eq fresh]
  exact nofun

/-- A variable that exists takes a value. -/
theorem not_assign_value_error {name : String} {type : Ty} {held value : Value}
    (found : m.store.lookup? name = some (.variable type held)) :
    assign a name (.value value) span m ≠ (.error u, m₁) := by
  have updated : m.store.update name (.value value) =
      .ok (m.store.modify name fun _ => .variable type value) := by
    unfold Store.update
    rw [found]
  rw [assign_apply, updated]
  exact nofun

theorem not_assign_field_error {name field : String} {r : RecordInstance} {slot : FieldSlot}
    {value : Value} (found : m.store.lookup? name = some (.recordInstance r))
    (present : r.fields.find? field = some slot) :
    assign a name (.field field value) span m ≠ (.error u, m₁) := by
  have updated : ∃ store, m.store.update name (.field field value) = .ok store := by
    unfold Store.update
    simp [found, Bindings.contains, present]
  obtain ⟨store, updated⟩ := updated
  rw [assign_apply, updated]
  rintro ⟨⟩

theorem foreseen_element {array : Identifier} {index : Expression} {type : Ty} {value : Value}
    {w : Word} {fault : Fault}
    (found : m₁.store.lookup? array.name = some (.variable (.array type) value))
    (fits : V (.array type) value)
    (raised : readElement a array.name w span m₁ = (.error u, m₂))
    (ended : evaluate (fuel + 1) a (.index array index span) m = (.error u, m₂))
    (caused : u.fault? = some fault) :
    Foreseen V ⟨fuel + 1, a, .evaluate (.index array index span), m⟩ fault := by
  rw [readElement_apply, found] at raised
  cases value with
  | array elements =>
    dsimp only at raised
    split at raised
    · cases raised
    · cases raised
      rw [Activation.fault?_unwinding] at caused
      cases caused
      exact .bounds
  | _ =>
    cases raised
    rw [Activation.fault?_unwinding] at caused
    cases caused
    have left : Moment.perform ⟨fuel + 1, a, .evaluate (.index array index span), m⟩ =
        (.error _, m₁) := ended
    refine .element ?_ fits nofun
    rw [left]
    exact found

variable (closed : store.Closed) (passed : (checkProgram program store).passed = true)
  (admissible : Admissible V)

include closed passed admissible

/-- Whatever a task that is tracked raises is foreseen. -/
theorem Tracked.foreseen {x : Moment} (tracked : Tracked V program store x c s)
    (raised : Raises x u) {fault : Fault} (caused : u.fault? = some fault) :
    Foreseen V x fault := by
  have sound : ∀ {y c s}, Tracked V program store y c s → Sound V y c s :=
    fun tracked => tracked.sound closed passed admissible
  have accepted := tracked.accepted closed passed
  cases raised with
  | exhausted => cases caused
  | «variable» raised =>
    obtain ⟨type, typed⟩ := accepted
    exact absurd raised (not_readVariable_error (tracked.identifier closed passed typed))
  | message accessor raised =>
    obtain ⟨type, typed⟩ := accepted
    exact absurd raised (not_readVariable_error (tracked.message closed passed accessor typed))
  | position known wrong =>
    obtain ⟨type, typed⟩ := accepted
    obtain ⟨-, fits⟩ := (sound (tracked.part .position trivial)).of_ok known
    rw [Activation.fault?_unwinding] at caused
    cases caused
    exact .index (fits .int (types_index typed).1) wrong
  | @element fuel a m m₁ m₂ array index w span _ known raised =>
    obtain ⟨type, typed⟩ := accepted
    have before : Tracked V program store ⟨fuel, a, .evaluate index, m⟩ c s :=
      tracked.part .position trivial
    obtain ⟨holds, -⟩ := (sound before).of_ok known
    have after : Tracked V program store ⟨fuel, a, .evaluate index, m₁⟩ c s :=
      tracked.part_after .position (.refl _) (((framesAt fuel).evaluate a index).after known) holds
        trivial
    obtain ⟨value, found⟩ := after.array typed
    have ended : evaluate (fuel + 1) a (.index array index span) m = (.error u, m₂) := by
      unfold evaluate
      exact bind_eq_error_iff.mpr (.inr ⟨.int w, m₁, known, raised⟩)
    exact foreseen_element found (Store.Every.of_lookup? holds found) raised ended caused
  | field raised =>
    obtain ⟨type, typed⟩ := accepted
    exact absurd raised (not_readField_error (tracked.field typed))
  | @unary fuel a m m₁ operator operand v _ span known refused =>
    obtain ⟨type, typed⟩ := accepted
    obtain ⟨found, operandTyped, gives⟩ := types_unary typed
    obtain ⟨-, fits⟩ := (sound (tracked.part .operand trivial)).of_ok known
    rw [Activation.fault?_unwinding] at caused
    cases caused
    exact .unary known gives (fits found operandTyped) refused
  | @binary fuel a m m₁ m₂ operator left right v w _ span known undecided known' refused =>
    obtain ⟨type, typed⟩ := accepted
    obtain ⟨found, found', leftTyped, rightTyped, gives⟩ := types_binary typed
    have before : Tracked V program store ⟨fuel, a, .evaluate left, m⟩ c s :=
      tracked.part .left trivial
    obtain ⟨holds, fits⟩ := (sound before).of_ok known
    have after : Tracked V program store ⟨fuel, a, .evaluate right, m₁⟩ c s :=
      tracked.part_after .right (.refl _) (((framesAt fuel).evaluate a left).after known) holds
        trivial
    obtain ⟨-, fits'⟩ := (sound after).of_ok known'
    rw [Activation.fault?_unwinding] at caused
    cases caused
    exact .binary known known' gives (fits found leftTyped) (fits' found' rightTyped) refused
  | callee raised =>
    obtain ⟨f, -, found, -⟩ := tracked.callee closed passed rfl
    cases raised.symm.trans (calledFunction_eq_ok_iff.mpr ⟨found, rfl⟩)
  | @refused fuel a m m₁ name arguments f values _ span found known forbidden =>
    obtain ⟨f', -, found', fits⟩ := tracked.callee closed passed rfl
    cases found.symm.trans found'
    obtain ⟨-, typed⟩ := (sound (tracked.part .arguments trivial)).of_ok known
    have number : values.length = f.parameters.length :=
      (List.Forall₂.length_eq typed).symm.trans fits.length_eq
    rw [Activation.fault?_unwinding] at caused
    cases caused
    unfold callFault? at forbidden
    rw [if_neg (not_not.mpr number)] at forbidden
    split at forbidden
    · cases forbidden
      exact .depth
    · cases forbidden
  | @parameters fuel a m m₁ m₂ name arguments f values span _ found known allowed raised =>
    obtain ⟨holds, typed⟩ := (sound (tracked.part .arguments trivial)).of_ok known
    obtain ⟨m₂', s', bound, -⟩ := tracked.body closed passed found known holds typed
    cases raised.symm.trans bound
  | @escaped fuel a m m₁ m₂ m₃ name arguments f values signal span found known allowed bound done
      control =>
    obtain ⟨holds, typed⟩ := (sound (tracked.part .arguments trivial)).of_ok known
    obtain ⟨m₂', s', bound', inBody⟩ := tracked.body closed passed found known holds typed
    cases bound.symm.trans bound'
    obtain ⟨-, fits⟩ := (sound inBody).of_ok done
    -- A body is checked outside of any loop, where such a signal does not fit.
    rcases control with rfl | rfl <;> cases fits
  | @truth fuel a m m₁ e v known wrong =>
    obtain ⟨-, fits⟩ := (sound (tracked.part .truth trivial)).of_ok known
    rw [Activation.fault?_unwinding] at caused
    cases caused
    exact .truth (fits .bool accepted) wrong
  | @declaration fuel a m m₁ m₂ type name initializer v span _ known raised =>
    obtain ⟨fresh, -⟩ := tracked.declare closed passed name.name
      (.variable (.ofTypeName type) (Ty.ofTypeName type).defaultValue)
      (.variable (.ofTypeName type) v) rfl rfl rfl
      ((frame_initialValue (framesAt fuel) a type initializer).after known)
    exact absurd raised (not_define_error fresh)
  | @«instance» fuel a m m₁ type name span _ raised =>
    unfold Point.Accepted checkStatement at accepted
    obtain ⟨r, found⟩ := of_clean_recordInstance accepted
    obtain ⟨fresh, -⟩ := tracked.declare closed passed name.name
      (.recordInstance r.instantiate) (.recordInstance r.instantiate) rfl
      (by simp [Statement.declarations, found, Declarations.bindings]) rfl (.refl _)
    rw [instantiate_apply, tracked.agrees.lookup?_recordType found] at raised
    exact absurd raised (not_define_error fresh)
  | @assignment fuel a m m₁ m₂ name value v span _ known raised =>
    unfold Point.Accepted checkStatement at accepted
    obtain ⟨type, held, found, -⟩ := of_clean_assignment accepted
    have kept := ((framesAt fuel).evaluate a value).after known
    obtain ⟨held', found'⟩ := (tracked.agrees.of_sameOutline kept).lookup?_variable found
    exact absurd raised (not_assign_value_error found')
  | @fieldAssignment fuel a m m₁ m₂ record field value v span _ known raised =>
    unfold Point.Accepted checkStatement at accepted
    obtain ⟨r, slot, found, present, -⟩ := of_clean_fieldAssignment accepted
    have kept := ((framesAt fuel).evaluate a value).after known
    obtain ⟨held, old, found', present'⟩ :=
      (tracked.agrees.of_sameOutline kept).lookup?_field found present
    exact absurd raised (not_assign_field_error found' present')
  | @caught fuel a m m₁ m₂ guarded recovery error span _ caught raised =>
    have tried : Tracked V program store
        ⟨fuel, a.inGuard, .executeAll guarded.statements, m.enter "try" .guarded⟩ c.inBlock _ :=
      tracked.enter .guarded
    have holds := (Yields.inScope (sound tried)).of_error caught
    obtain ⟨m₂', s', bound, -⟩ := tracked.recovery caught holds (admissible.str _)
    cases raised.symm.trans bound
  | limit holds exceeded =>
    rw [Activation.fault?_unwinding] at caused
    cases caused
    exact .limit
  | @stray fuel a m m₁ statement rest last signal other done control =>
    obtain ⟨-, fits, -⟩ := (sound (tracked.topStatement closed passed)).of_ok done
    have placed := tracked.visited.placed closed passed
    -- A program runs in the global scope alone, so its statements were checked at the top level.
    have top : c = .topLevel :=
      placed.stands.top (placed.stands.level.trans (placed.program _ _ rfl))
    subst top
    cases signal with
    | normal => exact absurd rfl control
    | «return» value =>
      obtain ⟨f, inside, -⟩ := fits
      cases inside
    | «break» | «continue» => cases fits

end

end CheckedScript
