import CheckedScript.Ast.Size
import CheckedScript.Proofs.Execution.Run

/-!
# Integer arithmetic

An integer expression has an exact value over the integers, unless it divides by zero. Evaluation
computes with words, and gives this value if it fits into a word, and if those of all parts do. If not,
the first part that fails to fit, operands before operators and from left to right, decides the fault
(`evaluate_arithmetic_exact`).
-/

namespace CheckedScript

/-- The integers that a signed word of 64 bits can hold. -/
def InWordRange (n : Int) : Prop := -0x8000000000000000 ≤ n ∧ n < 0x8000000000000000

instance (n : Int) : Decidable (InWordRange n) := inferInstanceAs (Decidable (_ ∧ _))

namespace Word

theorem inWordRange_iff {n : Int} :
    InWordRange n ↔ Int64.minValue.toInt ≤ n ∧ n ≤ Int64.maxValue.toInt := by
  have lower : Int64.minValue.toInt = -0x8000000000000000 := by decide
  have upper : Int64.maxValue.toInt = 0x7fffffffffffffff := by decide
  unfold InWordRange
  omega

theorem inWordRange_toInt (w : Word) : InWordRange w.toInt :=
  inWordRange_iff.mpr ⟨w.le_toInt, Int.le_of_lt_add_one w.toInt_lt⟩

theorem ofInt?_eq_none_iff {n : Int} : ofInt? n = none ↔ ¬ InWordRange n := by
  rw [inWordRange_iff]
  unfold ofInt?
  split <;> simp_all

end Word

namespace Expression

/-- Integer literals and variables that hold integers, under parentheses, a minus sign and the four
operators of arithmetic. -/
inductive IsArithmetic (s : Store) : Expression → Prop
  | integer (w : Word) (span : Span) : IsArithmetic s (.integer w span)
  | identifier {name : Identifier} {type : Ty} {w : Word} (span : Span)
      (bound : s.lookup? name.name = some (.variable type (.int w))) :
      IsArithmetic s (.identifier name span)
  | parenthesized {inner : Expression} (span : Span) (arithmetic : IsArithmetic s inner) :
      IsArithmetic s (.parenthesized inner span)
  | negate {operand : Expression} (span : Span) (arithmetic : IsArithmetic s operand) :
      IsArithmetic s (.unary .negate operand span)
  | binary {operator : BinaryOperator} {left right : Expression} (span : Span)
      (operates : operator.isArithmetic = true) (first : IsArithmetic s left)
      (second : IsArithmetic s right) : IsArithmetic s (.binary operator left right span)

/-- The exact value over the integers, of whatever size; a quotient is cut towards zero. -/
def exactValue? (s : Store) : Expression → Option Int
  | .integer w _ => some w.toInt
  | .identifier name _ =>
    match s.lookup? name.name with
    | some (.variable _ (.int w)) => some w.toInt
    | _ => none
  | .parenthesized inner _ => inner.exactValue? s
  | .unary .negate operand _ => (operand.exactValue? s).map fun n => -n
  | .binary operator left right _ => do
    let n ← left.exactValue? s
    let k ← right.exactValue? s
    match operator with
    | .add => some (n + k)
    | .subtract => some (n - k)
    | .multiply => some (n * k)
    | .divide => if k = 0 then none else some (n.tdiv k)
    | _ => none
  | _ => none

/-- The parts of an arithmetic expression and the expression itself, operands before operators and
from left to right. -/
def postorder : Expression → List Expression
  | .parenthesized inner span => inner.postorder ++ [.parenthesized inner span]
  | .unary operator operand span => operand.postorder ++ [.unary operator operand span]
  | .binary operator left right span =>
    left.postorder ++ right.postorder ++ [.binary operator left right span]
  | e => [e]

/-- The expression has an exact value, and a word can hold it. -/
def Fits (s : Store) (e : Expression) : Prop := ∃ n, e.exactValue? s = some n ∧ InWordRange n

/-- What is wrong with an operator whose operands fit and which does not. -/
inductive CallsFor (s : Store) : Expression → Fault → Prop
  | zeroDivisor {left right : Expression} {span : Span} (zero : right.exactValue? s = some 0) :
      CallsFor s (.binary .divide left right span) .divisionByZero
  | negation {operand : Expression} {span : Span} {n : Int}
      (valued : (Expression.unary .negate operand span).exactValue? s = some n)
      (outside : ¬ InWordRange n) :
      CallsFor s (.unary .negate operand span) (.integerOverflow UnaryOperator.negate.symbol)
  | operation {operator : BinaryOperator} {left right : Expression} {span : Span} {n : Int}
      (valued : (Expression.binary operator left right span).exactValue? s = some n)
      (outside : ¬ InWordRange n) :
      CallsFor s (.binary operator left right span) (.integerOverflow operator.symbol)

theorem CallsFor.unique {s : Store} {e : Expression} {fault fault' : Fault}
    (reason : e.CallsFor s fault) (reason' : e.CallsFor s fault') : fault = fault' := by
  have valueless {left right : Expression} {span : Span} {n : Int}
      (zero : right.exactValue? s = some 0)
      (valued : (Expression.binary .divide left right span).exactValue? s = some n) : False := by
    cases known : left.exactValue? s <;> simp [exactValue?, known, zero] at valued
  cases reason with
  | zeroDivisor zero =>
    cases reason' with
    | zeroDivisor => rfl
    | operation valued => exact (valueless zero valued).elim
  | negation =>
    cases reason'
    rfl
  | operation valued =>
    cases reason' with
    | zeroDivisor zero => exact (valueless zero valued).elim
    | operation => rfl

/-- The first part that does not fit, and the fault that it calls for. -/
structure FailsFirst (s : Store) (parts : List Expression) (d : Expression) (fault : Fault) :
    Prop where
  first : ∃ before after, parts = before ++ d :: after ∧ ∀ c ∈ before, c.Fits s
  unfit : ¬ d.Fits s
  reason : d.CallsFor s fault

namespace FailsFirst

variable {s : Store} {parts before : List Expression} {d : Expression} {fault : Fault}

theorem append (fails : FailsFirst s parts d fault) (after : List Expression) :
    FailsFirst s (parts ++ after) d fault := by
  obtain ⟨⟨before, between, rfl, fit⟩, unfit, reason⟩ := fails
  exact ⟨⟨before, between ++ after, by simp, fit⟩, unfit, reason⟩

theorem prepend (fails : FailsFirst s parts d fault) (fit : ∀ c ∈ before, c.Fits s) :
    FailsFirst s (before ++ parts) d fault := by
  obtain ⟨⟨between, after, rfl, fit'⟩, unfit, reason⟩ := fails
  exact ⟨⟨before ++ between, after, by simp, List.forall_mem_append.mpr ⟨fit, fit'⟩⟩, unfit, reason⟩

theorem self (unfit : ¬ d.Fits s) (reason : d.CallsFor s fault) (fit : ∀ c ∈ before, c.Fits s) :
    FailsFirst s (before ++ [d]) d fault :=
  ⟨⟨before, [], rfl, fit⟩, unfit, reason⟩

theorem not_all_fit (fails : FailsFirst s parts d fault) : ¬ ∀ c ∈ parts, c.Fits s := by
  obtain ⟨⟨before, after, rfl, -⟩, unfit, -⟩ := fails
  exact fun all => unfit (all d (List.mem_append_right _ List.mem_cons_self))

/-- There is one first part, and it calls for one fault. -/
theorem unique {d' : Expression} {fault' : Fault} (fails : FailsFirst s parts d fault)
    (fails' : FailsFirst s parts d' fault') : d = d' ∧ fault = fault' := by
  obtain ⟨⟨before, after, rfl, fit⟩, unfit, reason⟩ := fails
  obtain ⟨⟨before', after', same, fit'⟩, unfit', reason'⟩ := fails'
  have part : d = d' := by
    rcases List.append_eq_append_iff.mp same with ⟨between, rfl, rest⟩ | ⟨between, rfl, rest⟩
    · cases between with
      | nil =>
        cases rest
        rfl
      | cons c between =>
        cases rest
        exact absurd (fit' d (List.mem_append_right _ List.mem_cons_self)) unfit
    · cases between with
      | nil =>
        cases rest
        rfl
      | cons c between =>
        cases rest
        exact absurd (fit d' (List.mem_append_right _ List.mem_cons_self)) unfit'
  subst part
  exact ⟨rfl, reason.unique reason'⟩

end FailsFirst

/-- How an operator may end whose operands fit: with the exact value, or with the fault that the
expression calls for. -/
inductive Decides (s : Store) (e : Expression) : Except Fault Value → Prop
  | value {w : Word} (valued : e.exactValue? s = some w.toInt) : Decides s e (.ok (.int w))
  | fault {fault : Fault} (unfit : ¬ e.Fits s) (reason : e.CallsFor s fault) :
      Decides s e (.error fault)

/-- How the evaluation of arithmetic may end: with the exact value of an expression all of whose parts
fit, or with the fault of the first part that does not. -/
inductive Settles (s : Store) (a : Activation) (e : Expression) : Except Unwind Value → Prop
  | value {w : Word} (fit : ∀ d ∈ e.postorder, d.Fits s)
      (valued : e.exactValue? s = some w.toInt) : Settles s a e (.ok (.int w))
  | fault {d : Expression} {fault : Fault} (fails : FailsFirst s e.postorder d fault) :
      Settles s a e (.error (a.unwinding fault d.span))

variable {s : Store} {e : Expression} {n : Int} {x y w : Word}

theorem fits_of_exactValue? (valued : e.exactValue? s = some w.toInt) : e.Fits s :=
  ⟨_, valued, w.inWordRange_toInt⟩

/-- A result is refused if and only if it does not fit. -/
theorem decides_of_exactValue? {symbol : String} (valued : e.exactValue? s = some n)
    (overflow : ¬ InWordRange n → e.CallsFor s (.integerOverflow symbol)) :
    e.Decides s (match Word.ofInt? n with
      | some w => .ok (.int w)
      | none => .error (.integerOverflow symbol)) := by
  cases narrowed : Word.ofInt? n with
  | some w => exact .value (by rw [valued, Word.toInt_of_ofInt?_eq_some narrowed])
  | none =>
    have outside := Word.ofInt?_eq_none_iff.mp narrowed
    refine .fault ?_ (overflow outside)
    rintro ⟨k, valued', inside⟩
    cases valued.symm.trans valued'
    exact outside inside

theorem decides_negate {operand : Expression} (span : Span)
    (known : operand.exactValue? s = some x.toInt) :
    (Expression.unary .negate operand span).Decides s (Value.applyUnary .negate (.int x)) := by
  have valued : (Expression.unary .negate operand span).exactValue? s = some (-x.toInt) := by
    rw [exactValue?, known]
    rfl
  exact decides_of_exactValue? valued (.negation valued)

theorem decides_binary {operator : BinaryOperator} {left right : Expression} (span : Span)
    (operates : operator.isArithmetic = true) (known : left.exactValue? s = some x.toInt)
    (known' : right.exactValue? s = some y.toInt) :
    (Expression.binary operator left right span).Decides s
      (Value.applyBinary operator (.int x) (.int y)) := by
  have applied : Value.applyBinary operator (.int x) (.int y) =
      Value.integerArithmetic operator x y := by
    unfold Value.applyBinary
    rw [if_pos operates]
    rfl
  have total {n : Int} (same : Value.exactResult? operator x.toInt y.toInt = some n)
      (valued : (Expression.binary operator left right span).exactValue? s = some n) :
      (Expression.binary operator left right span).Decides s
        (Value.integerArithmetic operator x y) := by
    unfold Value.integerArithmetic
    rw [same]
    exact decides_of_exactValue? valued (.operation valued)
  rw [applied]
  cases operator with
  | add | subtract | multiply => exact total rfl (by simp [exactValue?, known, known'])
  | divide =>
    by_cases zero : y.toInt = 0
    · have refused : Value.integerArithmetic .divide x y = .error .divisionByZero := by
        simp [Value.integerArithmetic, Value.exactResult?, zero]
      have valueless : (Expression.binary .divide left right span).exactValue? s = none := by
        simp [exactValue?, known, known', zero]
      rw [refused]
      refine .fault ?_ (.zeroDivisor (known'.trans (congrArg some zero)))
      rintro ⟨n, valued, -⟩
      cases valueless.symm.trans valued
    · exact total (if_neg zero) (by simp [exactValue?, known, known', zero])
  | _ => cases operates

end Expression

namespace Execution

open Expression Run

variable {s : Store} {e : Expression} {a : Activation} {before : List Expression}

/-- An expression that has a value comes after its parts, which fit. -/
theorem settles_value {w : Word} (parts : e.postorder = before ++ [e])
    (fit : ∀ d ∈ before, d.Fits s) (valued : e.exactValue? s = some w.toInt) :
    e.Settles s a (.ok (.int w)) := by
  refine .value ?_ valued
  rw [parts]
  exact List.forall_mem_append.mpr
    ⟨fit, List.forall_mem_singleton.mpr (fits_of_exactValue? valued)⟩

theorem exists_settles_of_decides {result : Except Fault Value} (m : Machine)
    (parts : e.postorder = before ++ [e]) (fit : ∀ d ∈ before, d.Fits s)
    (decided : e.Decides s result) :
    ∃ ended, yield a result e.span m = (ended, m) ∧ e.Settles s a ended := by
  cases decided with
  | value valued => exact ⟨_, rfl, settles_value parts fit valued⟩
  | fault unfit reason => exact ⟨_, rfl, .fault (parts ▸ .self unfit reason fit)⟩

/-- The evaluation of arithmetic ends with a value or at the first part that does not fit. -/
theorem exists_settles {m : Machine} (arithmetic : e.IsArithmetic m.store) (a : Activation)
    (fuel : Nat) :
    ∃ ended, evaluate (e.size + fuel) a e m = (ended, m) ∧ e.Settles m.store a ended := by
  induction arithmetic generalizing fuel with
  | integer w span =>
    rw [show (Expression.integer w span).size + fuel = fuel + 1 from Nat.add_comm 1 fuel]
    exact ⟨_, rfl, settles_value rfl (List.forall_mem_nil _) rfl⟩
  | @identifier name type w span bound =>
    rw [show (Expression.identifier name span).size + fuel = fuel + 1 from Nat.add_comm 1 fuel]
    refine ⟨.ok (.int w), ?_, settles_value rfl (List.forall_mem_nil _) ?_⟩
    · show readVariable a name m = _
      rw [readVariable_apply, bound]
    · rw [exactValue?, bound]
  | @parenthesized inner span arithmetic ih =>
    obtain ⟨ended, evaluated, settled⟩ := ih fuel
    rw [Expression.size, Nat.add_right_comm]
    refine ⟨ended, evaluated, ?_⟩
    cases settled with
    | value fit valued => exact settles_value rfl fit valued
    | fault fails => exact .fault (fails.append _)
  | @negate operand span arithmetic ih =>
    obtain ⟨ended, evaluated, settled⟩ := ih fuel
    rw [Expression.size, Nat.add_right_comm, evaluate, bind_apply, evaluated]
    cases settled with
    | value fit valued => exact exists_settles_of_decides m rfl fit (decides_negate span valued)
    | fault fails => exact ⟨_, rfl, .fault (fails.append _)⟩
  | @binary operator left right span operates first second ih ih' =>
    obtain ⟨ended, evaluated, settled⟩ := ih (right.size + fuel)
    obtain ⟨ended', evaluated', settled'⟩ := ih' (left.size + fuel)
    have undecided (w : Word) : decides operator (.int w) = false := by
      cases operator <;> rfl
    rw [← Nat.add_assoc] at evaluated
    rw [Nat.add_left_comm, ← Nat.add_assoc] at evaluated'
    rw [Expression.size, Nat.add_right_comm, evaluate, bind_apply, evaluated]
    cases settled with
    | fault fails => exact ⟨_, rfl, .fault ((fails.append _).append _)⟩
    | value fit valued =>
      dsimp only
      rw [undecided, if_neg Bool.false_ne_true, bind_apply, evaluated']
      cases settled' with
      | fault fails => exact ⟨_, rfl, .fault ((fails.prepend fit).append _)⟩
      | value fit' valued' =>
        exact exists_settles_of_decides m rfl (List.forall_mem_append.mpr ⟨fit, fit'⟩)
          (decides_binary span operates valued valued')

/-- Integer arithmetic never wraps around. It changes nothing, and it yields an integer if and only
if all parts of the expression have an exact value in the range of words, which is then the exact
value of the expression; otherwise it fails with the fault that the first other part calls for. -/
theorem evaluate_arithmetic_exact {m : Machine} (arithmetic : e.IsArithmetic m.store)
    (a : Activation) (fuel : Nat) :
    let ended := evaluate (e.size + fuel) a e m
    ended.2 = m ∧
    (∀ r, ended.1 = .ok (.int r) ↔
      (∀ d ∈ e.postorder, d.Fits m.store) ∧ e.exactValue? m.store = some r.toInt) ∧
    ((∀ d ∈ e.postorder, d.Fits m.store) → ∃ r, ended.1 = .ok (.int r)) ∧
    ((¬ ∀ d ∈ e.postorder, d.Fits m.store) → ∃ d fault, FailsFirst m.store e.postorder d fault) ∧
    ∀ d fault, FailsFirst m.store e.postorder d fault →
      ended.1 = .error (a.unwinding fault d.span) := by
  obtain ⟨ended, evaluated, settled⟩ := exists_settles arithmetic a fuel
  dsimp only
  rw [evaluated]
  refine ⟨rfl, ?_⟩
  cases settled with
  | @value w fit valued =>
    refine ⟨fun r => ⟨?_, ?_⟩, fun _ => ⟨w, rfl⟩, fun unfit => absurd fit unfit,
      fun d fault fails => absurd fit fails.not_all_fit⟩
    · rintro ⟨⟩
      exact ⟨fit, valued⟩
    · rintro ⟨-, valued'⟩
      have same : w.toInt = r.toInt := Option.some.inj (valued.symm.trans valued')
      rw [Int64.toInt_inj.mp same]
  | @fault d fault fails =>
    refine ⟨fun r => ⟨nofun, fun fit => absurd fit.1 fails.not_all_fit⟩,
      fun fit => absurd fit fails.not_all_fit, fun _ => ⟨d, fault, fails⟩, ?_⟩
    intro d' fault' fails'
    obtain ⟨rfl, rfl⟩ := fails.unique fails'
    rfl

/-- In `(low / -1) + 1 / 0`, where `low` is the lowest integer, the quotient in parentheses is the
first part that does not fit. -/
theorem evaluate_arithmetic_exact_lowestQuotient :
    let s : Store := { Store.empty Store.defaultHistoryLimit with
      global := ⟨0, "global", .global, [("low", .variable .int (.int Int64.minValue))]⟩ }
    let quotient : Expression := .binary .divide (.identifier ⟨"low", default⟩ default)
      (.unary .negate (.integer 1 default) default) ⟨0, 8, 1, 1⟩
    let e : Expression := .binary .add (.parenthesized quotient default)
      (.binary .divide (.integer 1 default) (.integer 0 default) default) default
    e.IsArithmetic s ∧ quotient.exactValue? s = some 0x8000000000000000 ∧
      evaluate e.size (.topLevel .standard) e ⟨s, #[], .never⟩ =
        (.error (.fatal ⟨.integerOverflow "/", quotient.span⟩), ⟨s, #[], .never⟩) := by
  intro s quotient e
  have arithmetic : e.IsArithmetic s :=
    .binary _ rfl (.parenthesized _ (.binary _ rfl (.identifier _ rfl) (.negate _ (.integer _ _))))
      (.binary _ rfl (.integer _ _) (.integer _ _))
  have valued : quotient.exactValue? s = some 0x8000000000000000 := by decide
  have fails : FailsFirst s e.postorder quotient (.integerOverflow "/") := by
    refine ⟨⟨[_, _, _], _, rfl, ?_⟩, ?_, .operation valued (by decide)⟩
    · simp only [List.forall_mem_cons]
      exact ⟨⟨_, rfl, by decide⟩, ⟨_, rfl, by decide⟩, ⟨_, rfl, by decide⟩, List.forall_mem_nil _⟩
    · rintro ⟨n, valued', inside⟩
      cases valued.symm.trans valued'
      exact absurd inside (by decide)
  obtain ⟨kept, -, -, -, failed⟩ :=
    evaluate_arithmetic_exact (m := ⟨s, #[], .never⟩) arithmetic (.topLevel .standard) 0
  exact ⟨arithmetic, valued, Prod.ext (failed _ _ fails) kept⟩

end Execution

end CheckedScript
