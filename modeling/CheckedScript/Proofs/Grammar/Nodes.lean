import CheckedScript.Grammar.Match
import CheckedScript.Proofs.Source.Reading

/-!
# Where nodes stand

A match reads on from the place where it starts, and the nodes that it keeps stand on that way: one
after the other, each with its own nodes between its ends (`stretches_matchText`).
-/

namespace CheckedScript.Grammar

/-- The nodes stand in order on the way from the first cursor to the second one, and so do the nodes
inside each of them between its ends. -/
def Stretches (a b : Cursor) : List Node → Prop
  | [] => a.LeadsTo b
  | .mk _ start stop children :: rest =>
    a.LeadsTo start ∧ Stretches start stop children ∧ Stretches stop b rest

namespace Stretches

variable {a b c : Cursor} {nodes more : List Node}

theorem leadsTo (placed : Stretches a b nodes) : a.LeadsTo b := by
  induction a, b, nodes using Stretches.induct with
  | case1 a b => simpa only [Stretches] using placed
  | case2 a b rule start stop children rest inner next =>
    rw [Stretches] at placed
    exact (placed.1.trans (inner placed.2.1)).trans (next placed.2.2)

/-- What stands on the way from a later place stands on the way from an earlier one. -/
theorem after (earlier : a.LeadsTo b) (placed : Stretches b c nodes) : Stretches a c nodes := by
  cases nodes with
  | nil =>
    rw [Stretches] at placed ⊢
    exact earlier.trans placed
  | cons n rest =>
    cases n
    rw [Stretches] at placed ⊢
    exact placed.imp_left earlier.trans

theorem append (first : Stretches a b nodes) (second : Stretches b c more) :
    Stretches a c (nodes ++ more) := by
  induction nodes generalizing a with
  | nil =>
    rw [Stretches] at first
    exact second.after first
  | cons n rest ih =>
    cases n
    rw [Stretches] at first
    rw [List.cons_append, Stretches]
    exact ⟨first.1, first.2.1, ih first.2.2⟩

end Stretches

namespace Match

/-- Where the match succeeds it has read on from `start`, and its nodes stand on the way. -/
def ReadsFrom (start : Cursor) (m : Match) : Prop :=
  ∀ nodes rest attempts, m = .success nodes rest attempts → Stretches start rest nodes

variable {start : Cursor} {m : Match}

theorem readsFrom_success {nodes : List Node} {rest : Cursor} {attempts : Attempts} :
    ReadsFrom start (.success nodes rest attempts) ↔ Stretches start rest nodes := by
  refine ⟨fun reads => reads _ _ _ rfl, fun placed nodes' rest' attempts' same => ?_⟩
  cases same
  exact placed

theorem readsFrom_success_nil (start : Cursor) (attempts : Attempts) :
    ReadsFrom start (.success [] start attempts) :=
  readsFrom_success.mpr (by rw [Stretches]; exact .refl start)

theorem readsFrom_failure (attempts : Attempts) : ReadsFrom start (.failure attempts) := nofun

theorem readsFrom_cutOff : ReadsFrom start .cutOff := nofun

theorem ReadsFrom.after {a b : Cursor} (earlier : a.LeadsTo b) (reads : m.ReadsFrom b) :
    m.ReadsFrom a :=
  fun _ _ _ ended => (reads _ _ _ ended).after earlier

theorem ReadsFrom.andThen {next : Cursor → Attempts → Match} (first : m.ReadsFrom start)
    (second : ∀ rest attempts, (next rest attempts).ReadsFrom rest) :
    (m.andThen next).ReadsFrom start := by
  unfold Match.andThen
  split
  · next nodes rest attempts =>
    have placed := readsFrom_success.mp first
    split
    · next more stop later ended =>
      exact readsFrom_success.mpr (placed.append (second rest attempts _ _ _ ended))
    · next other =>
      rintro nodes stop later ended
      exact (other _ _ _ ended).elim
  · exact first

theorem ReadsFrom.orElse {next : Attempts → Match} (first : m.ReadsFrom start)
    (second : ∀ attempts, (next attempts).ReadsFrom start) : (m.orElse next).ReadsFrom start := by
  unfold Match.orElse
  split
  · exact second _
  · exact first

theorem readsFrom_ofOption {stop : Option Cursor} {attempts : Attempts}
    (reads : ∀ rest, stop = some rest → start.LeadsTo rest) :
    (ofOption stop attempts).ReadsFrom start := by
  cases stop with
  | none => exact readsFrom_failure attempts
  | some rest => exact readsFrom_success.mpr (by rw [Stretches]; exact reads rest rfl)

end Match

open Match

theorem readsFrom_repeatMatch {item : Cursor → Attempts → Match}
    (reads : ∀ c attempts, (item c attempts).ReadsFrom c) (limit : Nat) (found : List Node)
    {origin start : Cursor} (attempts : Attempts) (before : Stretches origin start found.reverse) :
    (repeatMatch item limit found start attempts).ReadsFrom origin := by
  induction limit generalizing found start attempts with
  | zero => exact readsFrom_cutOff
  | succ limit ih =>
    rw [repeatMatch]
    split
    · next nodes rest later ended =>
      refine ih _ _ ?_
      rw [List.reverse_append, List.reverse_reverse]
      exact before.append (reads _ _ _ _ _ ended)
    · exact readsFrom_success.mpr before
    · exact readsFrom_cutOff

theorem Spacing.leadsTo_gap (spacing : Spacing) (c : Cursor) : c.LeadsTo (spacing.gap c) := by
  cases spacing with
  | free => exact c.leadsTo_skipGap
  | tight | sealed => exact .refl c

/-- A pattern reads on if the rules in it do. -/
theorem readsFrom_run (limit : Nat) {call : RuleMatcher}
    (reads : ∀ rule spacing c attempts, (call rule spacing c attempts).ReadsFrom c)
    (spacing : Spacing) (p : Pattern) (start : Cursor) (attempts : Attempts) :
    (p.run limit call spacing start attempts).ReadsFrom start := by
  induction p generalizing start attempts with
  | text characters => exact readsFrom_ofOption fun _ => Cursor.leadsTo_of_takeText
  | satisfying test => exact readsFrom_ofOption fun _ => Cursor.leadsTo_of_takeIf
  | endOfText =>
    rw [Pattern.run]
    split
    · exact readsFrom_success_nil start _
    · exact readsFrom_failure attempts
  | rule name => exact reads name spacing start attempts
  | seq first second ihFirst ihSecond =>
    exact (ihFirst start attempts).andThen fun rest later =>
      (ihSecond _ later).after (spacing.leadsTo_gap rest)
  | alt first second ihFirst ihSecond =>
    exact (ihFirst start attempts).orElse fun later => ihSecond start later
  | many item ih =>
    rw [Pattern.run]
    split
    · next nodes rest later ended =>
      refine readsFrom_repeatMatch (fun c a => (ih _ a).after (spacing.leadsTo_gap c)) limit _
        later ?_
      rw [List.reverse_reverse]
      exact ih _ _ _ _ _ ended
    · exact readsFrom_success_nil start _
    · exact readsFrom_cutOff
  | optional item ih => exact (ih start attempts).orElse fun later => readsFrom_success_nil start later
  | absent item ih =>
    rw [Pattern.run]
    split
    · exact readsFrom_failure attempts
    · exact readsFrom_success_nil start _
    · exact readsFrom_cutOff

theorem readsFrom_matchRule (limit depth : Nat) (rule : Rule) (outer : Spacing) (start : Cursor)
    (attempts : Attempts) : (matchRule limit depth rule outer start attempts).ReadsFrom start := by
  induction depth generalizing rule outer start attempts with
  | zero => exact readsFrom_cutOff
  | succ depth ih =>
    have inside := readsFrom_run limit ih (rule.innerSpacing outer) rule.pattern start attempts
    rw [matchRule]
    split
    · next nodes rest later ended =>
      have placed := inside _ _ _ ended
      refine readsFrom_success.mpr ?_
      split
      · rw [Stretches, Stretches]
        exact ⟨.refl start, placed, .refl rest⟩
      · rw [Stretches]
        exact placed.leadsTo
    · exact readsFrom_failure _
    · exact readsFrom_cutOff

/-- The nodes of a text that matches stand in it. -/
theorem stretches_matchText {rule : Rule} {text : List Char} {nodes : List Node} {rest : Cursor}
    {attempts : Attempts} (matched : matchText rule text = .success nodes rest attempts) :
    Stretches (.ofText text) rest nodes :=
  readsFrom_matchRule _ _ _ _ _ _ _ _ _ matched

end CheckedScript.Grammar
