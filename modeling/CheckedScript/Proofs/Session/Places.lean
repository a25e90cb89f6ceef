import CheckedScript.Proofs.Execution.Places
import CheckedScript.Proofs.Parsing.Spans
import CheckedScript.Proofs.Session.Sequence

/-!
# Where the errors of a session point

A reader is shown the error of a call on the text of that call. But a function keeps the spans of the
text that declared it, so an error that is raised in the body of a function from an earlier call
points into the text of the earlier call. Every other error points into the text that was run
(`runtimeError_liesIn`).
-/

namespace CheckedScript

open Check Execution Store

/-- The function was read from this text. -/
def FunctionSymbol.IsFrom (f : FunctionSymbol) (source : String) : Prop :=
  ∀ s ∈ f.body.spans, s.LiesIn source.toList

section

variable {program : Program} {name : String} {f : FunctionSymbol}

theorem spans_subset_of_mem_registrations
    (registered : (name, Symbol.function f) ∈ program.registrations) :
    f.body.spans ⊆ program.spans := by
  obtain ⟨statement, listed, registers⟩ := List.mem_filterMap.mp registered
  cases statement with
  | function identifier parameters returnType body span =>
    cases registers
    intro s inside
    refine List.mem_cons_of_mem _ (Statement.spans_subset_of_mem listed ?_)
    rw [Statement.spans, List.mem_cons, List.mem_cons, List.mem_append]
    exact .inr (.inr (.inr inside))
  | _ => cases registers

theorem isFrom_of_mem_registrations {source : String}
    (parsed : Parsing.parseProgram source = .ok program)
    (registered : (name, Symbol.function f) ∈ program.registrations) : f.IsFrom source :=
  fun s inside => Parsing.liesIn_of_parseProgram parsed s
    (spans_subset_of_mem_registrations registered inside)

end

namespace Session

/-- Every function of a session was read from the source of one of its calls. -/
theorem everyFunction_after (limits : Limits) (requests : List Request) :
    (after limits requests).store.EveryFunction fun f =>
      ∃ request ∈ requests, f.IsFrom request.source := by
  induction requests using List.reverseRecOn with
  | nil => exact everyFunction_freshStore
  | append_singleton earlier request ih =>
    rw [after_append]
    refine everyFunction_run (idle_after limits earlier) (fun scope active binding bound f same => ?_)
      fun program parsed _ name f registered => ?_
    · obtain ⟨old, listed, isFrom⟩ := ih scope active binding bound f same
      exact ⟨old, List.mem_append_left _ listed, isFrom⟩
    · exact ⟨request, List.mem_append_right _ (List.mem_singleton_self _),
        isFrom_of_mem_registrations parsed registered⟩

/-- The call comes to the body of a function that the session has kept, and the error unwinds it. -/
structure UnwindsKept (s : Session) (request : Request) (error : RuntimeError)
    (f : FunctionSymbol) : Prop where
  kept : ∃ name, (name, Symbol.function f) ∈ s.store.global.symbols
  unwound : ∃ program moment, Parsing.parseProgram request.source = .ok program ∧
    Reaches (.afterCheck s.limits request.clock program s.store) moment ∧
    moment.task = .executeAll f.body.statements ∧ moment.EndsWith error

/-- The error of a call points into the source of the call, unless it unwinds the body of a function
that an earlier call has declared: then it points into the source of that one. -/
theorem runtimeError_liesIn (limits : Limits) (requests : List Request) (request : Request)
    {error : RuntimeError} {output : String}
    (stopped : ((after limits requests).run request.source request.clock).1 =
      .error (.runtime error output)) :
    error.span.LiesIn request.source.toList ∨
      ∃ earlier ∈ requests, ∃ f, (after limits requests).UnwindsKept request error f ∧
        f.IsFrom earlier.source ∧ error.span ∈ f.body.spans := by
  have idle := idle_after limits requests
  obtain ⟨program, parsed, passed, ended⟩ := program_of_stopped stopped
  generalize same : after limits requests = s at *
  have lies := Parsing.liesIn_of_parseProgram parsed
  -- A function that the run can call is from an earlier call and is kept, or is from this one.
  have every : (checkProgram program s.store).store.EveryFunction fun f =>
      (∃ earlier ∈ requests, f.IsFrom earlier.source ∧
        ∃ name, (name, Symbol.function f) ∈ s.store.global.symbols) ∨ f.IsFrom request.source := by
    refine everyFunction_checkProgram (fun scope active binding bound f function => ?_)
      idle.onlyGlobal passed fun name f registered =>
        .inr (isFrom_of_mem_registrations parsed registered)
    have old := everyFunction_after limits requests
    rw [same] at old
    obtain ⟨earlier, listed, isFrom⟩ := old scope active binding bound f function
    rw [idle.onlyGlobal, List.mem_singleton] at active
    subst active
    obtain ⟨name, symbol⟩ := binding
    subst function
    exact .inl ⟨earlier, listed, isFrom, name, bound⟩
  have points {u : Unwind}
      (unwound : (Moment.afterCheck s.limits request.clock program s.store).UnwindsWith u)
      (ends : ∀ y : Moment, y.UnwindsWith u → y.EndsWith error) (place : u.span? = some error.span) :
      error.span.LiesIn request.source.toList ∨
        ∃ earlier ∈ requests, ∃ f, s.UnwindsKept request error f ∧ f.IsFrom earlier.source ∧
          error.span ∈ f.body.spans := by
    rcases span_mem_of_unwindsWith every unwound with
      inside | ⟨f, y, ⟨earlier, listed, isFrom, kept⟩ | isFrom, reached, body, below, inside⟩
    · exact .inl (lies _ (List.mem_cons_of_mem _ (inside _ place)))
    · exact .inr ⟨earlier, listed, f, ⟨kept, program, y, parsed, reached, body, ends y below⟩, isFrom,
        inside _ place⟩
    · exact .inl (isFrom _ (inside _ place))
  rcases result_eq_error_iff.mp ended with unwound | unwound
  · exact points unwound (fun _ => .inl) rfl
  · exact points unwound (fun _ => .inr) rfl

/-- The place that the error of a call points to, if the call is accepted and an error stops it. -/
def errorSpan? (s : Session) (source : String) : Option Span :=
  match (s.run source).1 with
  | .error (.runtime error _) => some error.span
  | _ => none

theorem stopped_of_errorSpan? {s : Session} {source : String} {span : Span}
    (known : s.errorSpan? source = some span) :
    ∃ error output, (s.run source).1 = .error (.runtime error output) ∧ error.span = span := by
  unfold errorSpan? at known
  split at known
  · next error output ended => exact ⟨error, output, ended, Option.some.inj known⟩
  · cases known

/-- A function that divides by its argument. -/
def shareFunction : String := "func share(int n) int \x7b return 10 / n; \x7d"

def shareRequest : Request := ⟨shareFunction, .still⟩

theorem errorSpan?_share :
    (after .standard [shareRequest]).errorSpan? "share(0);" = some ⟨31, 37, 1, 32⟩ := by
  decide +kernel

theorem runtimeError_liesIn_share :
    ∃ error output, ((after .standard [shareRequest]).run "share(0);").1 =
        .error (.runtime error output) ∧
      (error.span.LiesIn "share(0);".toList ∨ ∃ earlier ∈ [shareRequest], ∃ f,
        (after .standard [shareRequest]).UnwindsKept ⟨"share(0);", .still⟩ error f ∧
          f.IsFrom earlier.source ∧ error.span ∈ f.body.spans) := by
  obtain ⟨error, output, stopped, -⟩ := stopped_of_errorSpan? errorSpan?_share
  exact ⟨error, output, stopped,
    runtimeError_liesIn .standard [shareRequest] ⟨"share(0);", .still⟩ stopped⟩

/-- The call `share(0);` is stopped by an error that points beyond its end, to the division in the
source that declared the function. -/
theorem error_points_beyond_source :
    (¬ ∀ (limits : Limits) (requests : List Request) (request : Request) (error : RuntimeError)
      (output : String),
      ((after limits requests).run request.source request.clock).1 =
          .error (.runtime error output) →
        error.span.LiesIn request.source.toList) ∧
    (after .standard [shareRequest]).errorSpan? "share(0);" = some ⟨31, 37, 1, 32⟩ := by
  refine ⟨fun all => ?_, errorSpan?_share⟩
  obtain ⟨error, output, stopped, place⟩ := stopped_of_errorSpan? errorSpan?_share
  have within := (all _ _ ⟨"share(0);", .still⟩ _ _ stopped).stop_le
  rw [place] at within
  exact absurd within (by decide)

end Session

end CheckedScript
