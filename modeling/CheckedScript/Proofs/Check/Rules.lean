import CheckedScript.Proofs.Check.Growth
import CheckedScript.Proofs.Check.Typing

/-!
# Statements without errors

What the check has found for each form of statement if it has found no error in it.
-/

namespace CheckedScript

namespace Checking

open Check

variable {s : Checking} {context : CheckContext} {e : Expression} {span : Span}

theorem types_of_clean_typeOf (clean : (s.typeOf context e).2.Clean) :
    s.Clean ∧ ∃ type, Types s.store context e type := by
  obtain ⟨before, found⟩ := clean_note_iff.mp clean
  exact ⟨before, types_of_clean found⟩

theorem type_of_clean_expect {found : Option Ty} {expected : Ty} {what : String}
    (clean : (s.expect found expected span what).Clean) :
    s.Clean ∧ ∀ type, found = some type → type = expected := by
  unfold expect at clean
  split at clean
  · exact ⟨clean, nofun⟩
  · next type =>
    split at clean
    · next same =>
      refine ⟨clean, ?_⟩
      rintro _ ⟨⟩
      exact same
    · exact absurd clean (not_clean_report rfl)

/-- An expression that is typed and then compared with the type that is expected of it. -/
theorem types_of_clean_expect {expected : Ty} {what : String}
    (clean : ((s.typeOf context e).2.expect (s.typeOf context e).1 expected span what).Clean) :
    Types s.store context e expected := by
  obtain ⟨before, same⟩ := type_of_clean_expect clean
  obtain ⟨-, type, typed⟩ := types_of_clean_typeOf before
  exact same type typed.1 ▸ typed

theorem types_of_clean_condition {construct : String}
    (clean : (s.condition context construct e).Clean) : Types s.store context e .bool := by
  unfold condition at clean
  dsimp only at clean
  split at clean
  · next unknown =>
    obtain ⟨-, type, typed⟩ := types_of_clean_typeOf clean
    rw [Checking.typeOf, typed.1] at unknown
    cases unknown
  · next known =>
    obtain ⟨-, type, typed⟩ := types_of_clean_typeOf clean
    rw [Checking.typeOf, typed.1] at known
    exact Option.some.inj known ▸ typed
  · exact absurd clean (not_clean_report rfl)

theorem types_of_clean_declaration {type : TypeName} {name : Identifier}
    (clean : (s.declaration context type name (some e)).Clean) :
    Types s.store context e (.ofTypeName type) := by
  unfold declaration at clean
  exact types_of_clean_expect ((declares_declare ..).continues.clean clean)

theorem of_clean_assignment {name : Identifier} (clean : (s.assignment context name e).Clean) :
    ∃ type value, s.store.lookup? name.name = some (.variable type value) ∧
      Types s.store context e type := by
  unfold assignment at clean
  dsimp only at clean
  split at clean
  · exact absurd clean (not_clean_report rfl)
  · split at clean
    · next type value found => exact ⟨type, value, found, types_of_clean_expect clean⟩
    · exact absurd clean (not_clean_report rfl)
    · exact absurd clean (not_clean_report rfl)

theorem of_clean_fieldAssignment {record field : Identifier}
    (clean : (s.fieldAssignment context record field e).Clean) :
    ∃ r slot, s.store.lookup? record.name = some (.recordInstance r) ∧
      r.fields.find? field.name = some slot ∧ Types s.store context e slot.type := by
  unfold fieldAssignment at clean
  dsimp only at clean
  split at clean
  · next expected known =>
    obtain ⟨noted, same⟩ := type_of_clean_expect clean
    obtain ⟨before, target⟩ := clean_note_iff.mp noted
    obtain ⟨-, type, typed⟩ := types_of_clean_typeOf before
    obtain ⟨r, slot, found, present, declared⟩ := gives_typeOfField ⟨known, target⟩
    refine ⟨r, slot, found, present, ?_⟩
    rw [declared, ← same type typed.1]
    exact typed
  · next unknown =>
    obtain ⟨-, target⟩ := clean_note_iff.mp clean
    obtain ⟨type, known⟩ := (settled_typeOfField record field).gives target
    cases known.1.symm.trans unknown

theorem of_clean_recordInstance {type name : Identifier}
    (clean : (s.recordInstance type name).Clean) :
    ∃ r, s.store.lookup? type.name = some (.recordType r) := by
  unfold recordInstance at clean
  split at clean
  · next r found => exact ⟨r, found⟩
  · exact absurd clean (not_clean_report rfl)

theorem of_clean_returning {value : Option Expression}
    (clean : (s.returning context value span).Clean) :
    ∃ f, context.function = some f ∧
      ∀ e, value = some e → Types s.store context e f.returnType := by
  unfold returning at clean
  dsimp only at clean
  split at clean
  · exact absurd clean (not_clean_report rfl)
  · next f inside =>
    refine ⟨f, inside, ?_⟩
    rintro e rfl
    dsimp only [Option.map_some] at clean
    split at clean
    · exact absurd clean (not_clean_report rfl)
    · split at clean
      · next unknown =>
        obtain ⟨-, type, typed⟩ := types_of_clean_typeOf clean
        rw [Checking.typeOf, typed.1] at unknown
        cases unknown
      · next found known =>
        split at clean
        · next same =>
          obtain ⟨-, type, typed⟩ := types_of_clean_typeOf clean
          rw [Checking.typeOf, typed.1] at known
          exact same ▸ Option.some.inj known ▸ typed
        · exact absurd clean (not_clean_report rfl)

/-- Only a function that yields nothing returns without a value. -/
theorem of_clean_returning_none (clean : (s.returning context none span).Clean) :
    ∃ f, context.function = some f ∧ f.returnType = .void := by
  unfold returning at clean
  dsimp only [Option.map_none] at clean
  split at clean
  · exact absurd clean (not_clean_report rfl)
  · next f inside =>
    split at clean
    · next void => exact ⟨f, inside, void⟩
    · exact absurd clean (not_clean_report rfl)

end Checking

namespace Check

theorem checkBlock_eq (context : CheckContext) (body : Block) (s : Checking) :
    checkBlock context body s = checkStatements context body.statements s := by
  obtain ⟨statements, span⟩ := body
  rw [checkBlock, Block.statements]

end Check

end CheckedScript
