import CheckedScript.Repl.Basic
import Mathlib.Data.List.Basic

/-!
# Typed lines that are code

A line that reads as a program should run as one. It does unless it begins with a comment, or looks
like a call of `run` or `load` from its first character to its last (`runsAsCode_iff`). A program may
do either: comments stand anywhere, and `run` and `load` may name functions of the session, a call of
which may be followed by a comment that ends in a parenthesis.
-/

namespace CheckedScript

open Parsing

/-- The text is a name with an argument in parentheses, as far as its two ends tell. -/
def LooksLikeCall (name : String) (text : List Char) : Prop :=
  ∃ argument, text = name.toList ++ '(' :: (argument ++ [')'])

theorem callArgument?_eq_some_iff {name : String} {text argument : List Char} :
    callArgument? name text = some argument ↔ text = name.toList ++ '(' :: (argument ++ [')']) := by
  unfold callArgument?
  dsimp only
  constructor
  · intro shaped
    split at shaped
    · next opened =>
      obtain ⟨rest, rfl⟩ := List.isPrefixOf_iff_prefix.mp opened
      rw [List.drop_left] at shaped
      split at shaped
      · next closed =>
        cases shaped
        rw [List.append_assoc, List.singleton_append, List.dropLast_append_getLast? _ closed]
      · cases shaped
    · cases shaped
  · rintro rfl
    have opened : (name.toList ++ ['(']).isPrefixOf
        (name.toList ++ '(' :: (argument ++ [')'])) = true :=
      List.isPrefixOf_iff_prefix.mpr ⟨argument ++ [')'], by simp⟩
    have rest : (name.toList ++ '(' :: (argument ++ [')'])).drop (name.toList ++ ['(']).length =
        argument ++ [')'] := by simp
    rw [if_pos opened, rest, if_pos List.getLast?_concat, List.dropLast_concat]

theorem callArgument?_eq_none_iff {name : String} {text : List Char} :
    callArgument? name text = none ↔ ¬ LooksLikeCall name text := by
  simp only [Option.eq_none_iff_forall_ne_some, ne_eq, callArgument?_eq_some_iff, LooksLikeCall,
    not_exists]

instance (name : String) (text : List Char) : Decidable (LooksLikeCall name text) :=
  decidable_of_iff ((callArgument? name text).isSome = true) <| by
    simp only [Option.isSome_iff_exists, callArgument?_eq_some_iff, LooksLikeCall]

/-- The text reads as a program that has something to do. -/
def IsCode (text : List Char) : Prop :=
  ∃ program, parseProgram (.ofList text) = .ok program ∧ program.statements ≠ []

instance (text : List Char) : Decidable (IsCode text) :=
  decidable_of_iff
    ((parseProgram (.ofList text)).toOption.any (fun program => !program.statements.isEmpty) = true)
    <| by
      unfold IsCode
      cases parseProgram (.ofList text) <;> simp [Except.toOption]

namespace Repl

/-- The line is answered as the session answers its trimmed text, with the same clock, and is
counted as code. -/
structure RunsAsCode (r : Repl) (text : String) (clock : Clock)
    (answer : Except ReplError ReplResult × Repl) : Prop where
  result : answer.1 = match (r.session.run text clock).1 with
    | .ok outcome => .ok (.evaluated outcome typedOrigin text)
    | .error error => .error (.session error typedOrigin text)
  session : answer.2.session = (r.session.run text clock).2
  loaded : answer.2.loaded = r.loaded
  commands : answer.2.stats.commandsExecuted = r.stats.commandsExecuted

variable {r : Repl} {text : List Char}

theorem execute_runsAsCode (r : Repl) (text : String) (clock : Clock) :
    r.RunsAsCode text clock (r.execute typedOrigin text clock) := by
  unfold execute
  rcases known : r.session.run text clock with ⟨error | outcome, session⟩ <;>
    constructor <;> simp only [known]

theorem commandsExecuted_execute (r : Repl) (origin text : String) (clock : Clock) :
    (r.execute origin text clock).2.stats.commandsExecuted = r.stats.commandsExecuted := by
  unfold execute
  split <;> rfl

theorem commandsExecuted_perform (read : FileReader) (r : Repl) (clock : Clock)
    (command : ReplCommand) :
    (r.perform read clock command).2.stats.commandsExecuted = r.stats.commandsExecuted := by
  cases command with
  | runLoaded =>
    simp only [perform]
    split
    · exact commandsExecuted_execute ..
    · rfl
  | run argument =>
    simp only [perform]
    split
    · exact commandsExecuted_execute ..
    · rfl
  | load argument =>
    simp only [perform]
    split <;> rfl
  | _ => rfl

/-- The commands without an argument, and the empty line, are not code: the grammar asks for a
semicolon after a call. -/
theorem ne_of_isCode (code : IsCode text) :
    ∀ fixed ∈ ["", "exit()", "help()", "clear()", "symbols()", "stats()", "run_loaded()"],
      String.ofList text ≠ fixed := by
  have idle : ∀ fixed ∈ ["", "exit()", "help()", "clear()", "symbols()", "stats()", "run_loaded()"],
      (parseProgram fixed).toOption.all (·.statements.isEmpty) = true := by decide +kernel
  rintro fixed listed rfl
  obtain ⟨program, parsed, nonempty⟩ := code
  have empty := idle _ listed
  rw [parsed] at empty
  exact nonempty (List.isEmpty_iff.mp empty)

theorem ofText?_eq_none_iff (code : IsCode text) :
    ReplCommand.ofText? text = none ↔
      ¬ LooksLikeCall "run" text ∧ ¬ LooksLikeCall "load" text := by
  rw [← callArgument?_eq_none_iff, ← callArgument?_eq_none_iff]
  unfold ReplCommand.ofText?
  split
  case h_7 =>
    cases callArgument? "run" text <;> simp
  all_goals
    next same => exact absurd same (ne_of_isCode code _ (by simp))

/-- A line that reads as a program runs as one exactly if it does not begin with a comment and does
not look like a call of `run` or `load`. -/
theorem runsAsCode_iff (read : FileReader) (r : Repl) (line : String) (clock : Clock)
    (code : IsCode (Text.trim line.toList)) :
    r.RunsAsCode (.ofList (Text.trim line.toList)) clock (r.evaluateLine read line clock) ↔
      ¬ ['/', '/'] <+: Text.trim line.toList ∧
        ¬ LooksLikeCall "run" (Text.trim line.toList) ∧
        ¬ LooksLikeCall "load" (Text.trim line.toList) := by
  unfold evaluateLine
  dsimp only
  generalize Text.trim line.toList = text at code ⊢
  have nonempty : text.isEmpty = false := by
    cases text with
    | nil => exact absurd rfl (ne_of_isCode code "" (by simp))
    | cons => rfl
  rw [nonempty, Bool.false_or, ← List.isPrefixOf_iff_prefix, ← ofText?_eq_none_iff code]
  by_cases comment : ['/', '/'].isPrefixOf text = true
  · rw [if_pos comment]
    refine ⟨fun runs => ?_, fun noComment => absurd comment noComment.1⟩
    have result := runs.result
    split at result <;> cases result
  · rw [if_neg comment]
    cases given : ReplCommand.ofText? text with
    | none => exact ⟨fun _ => ⟨comment, rfl⟩, fun _ => execute_runsAsCode r _ _⟩
    | some command =>
      refine ⟨fun runs => ?_, fun impossible => absurd impossible.2 nofun⟩
      have counted : (r.perform read clock command).2.stats.commandsExecuted + 1 =
        r.stats.commandsExecuted := runs.commands
      rw [commandsExecuted_perform] at counted
      omega

/-- A comment at the end of a line does not keep it from running. -/
theorem runsAsCode_iff_trailingComment :
    IsCode (Text.trim "print 1; // (done)".toList) ∧
      (start .standard).RunsAsCode (.ofList (Text.trim "print 1; // (done)".toList)) .still
        ((start .standard).evaluateLine (fun _ => .error .notFound) "print 1; // (done)") := by
  have code : IsCode (Text.trim "print 1; // (done)".toList) := by decide +kernel
  exact ⟨code, (runsAsCode_iff _ _ _ _ code).mpr (by decide +kernel)⟩

/-- An interactive session in which a function is called `run`. -/
def definesRun : Repl :=
  ((start .standard).execute typedOrigin "func run(int n) \x7b print n; \x7d" .still).2

/-- A call of a function named `run` prints in the session, but as a line with a comment that ends
in a parenthesis it is taken for the command, which looks for a file. -/
theorem call_of_run_hijacked :
    (¬ ∀ (read : FileReader) (r : Repl) (line : String) (clock : Clock),
      IsCode (Text.trim line.toList) →
        r.RunsAsCode (.ofList (Text.trim line.toList)) clock (r.evaluateLine read line clock)) ∧
    (definesRun.session.run "run(1); // (once)").1.toOption.map (·.output) = some "1" ∧
    (definesRun.evaluateLine (fun _ => .error .notFound) "run(1); // (once)").1.isOk = false := by
  refine ⟨fun all => ?_, by decide +kernel, by decide +kernel⟩
  have runs := all (fun _ => .error .notFound) definesRun "run(1); // (once)" .still
    (by decide +kernel)
  have counted : (definesRun.evaluateLine (fun _ => .error .notFound)
      "run(1); // (once)").2.stats.commandsExecuted ≠ definesRun.stats.commandsExecuted := by
    decide +kernel
  exact counted runs.commands

end Repl

end CheckedScript
