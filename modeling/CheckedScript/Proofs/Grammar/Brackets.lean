import CheckedScript.Proofs.Grammar.Alike
import CheckedScript.Proofs.Listing.Escapes

/-!
# Brackets

The tokens of what the grammar reads stand behind each other, with nothing but blanks and comments
between them, and none of them closes a bracket that is not open. `Pattern.depthBehind` follows the
brackets through a pattern, as `Pattern.flow` follows its modes; every phrase closes what it opens, so
that a program does (`Reads.trail`).
-/

namespace CheckedScript.Grammar

open Cursor (pastGap)

open Text (IsQuote)

/-! ## Counting -/

def isOpening (c : Char) : Bool := c == '\x7b' || c == '[' || c == '('

def isClosing (c : Char) : Bool := c == '\x7d' || c == ']' || c == ')'

/-- The characters, unless they are a quoted literal. -/
def unquoted (u : List Char) : List Char := if u.head?.any fun c => IsQuote c then [] else u

namespace Token

def characters (t : Token) : List Char := t.start.textUpTo t.stop

/-- The characters of a token that is no quoted literal. -/
def code (t : Token) : List Char := unquoted t.characters

end Token

/-- How many brackets the tokens open outside of quoted literals. -/
def openings (tokens : List Token) : Nat := (tokens.flatMap Token.code).countP isOpening

/-- How many brackets the tokens close outside of quoted literals. -/
def closings (tokens : List Token) : Nat := (tokens.flatMap Token.code).countP isClosing

section

variable {m m' : Mode} {scan : Scan} {text u y : List Char}

theorem unquoted_cases (u : List Char) : unquoted u = [] ∨ unquoted u = u := by
  rw [unquoted]
  split
  · exact .inl rfl
  · exact .inr rfl

theorem not_bracket_of_isWordChar {c : Char} (passes : isWordChar c = true) :
    isOpening c = false ∧ isClosing c = false := by
  have other (d : Char) (special : isWordChar d = false) : (c == d) = false :=
    beq_eq_false_iff_ne.mpr (ne_of_isWordChar passes special)
  simp only [isOpening, isClosing, Bool.or_eq_false_iff]
  exact ⟨⟨⟨other _ (by decide), other _ (by decide)⟩, other _ (by decide)⟩,
    ⟨⟨other _ (by decide), other _ (by decide)⟩, other _ (by decide)⟩⟩

/-- What holds no bracket opens and closes none. -/
theorem countP_of_plain (plain : ∀ c ∈ u, isOpening c = false ∧ isClosing c = false) :
    u.countP isOpening = 0 ∧ u.countP isClosing = 0 :=
  ⟨List.countP_eq_zero.mpr fun c member => by simp [(plain c member).1],
    List.countP_eq_zero.mpr fun c member => by simp [(plain c member).2]⟩

theorem countP_typeOrWord (isWord : TypeOrWord u y) : u.countP isOpening = u.countP isClosing := by
  have bare {word : List Char} (all : word.all isWordChar = true) :
      word.countP isOpening = 0 ∧ word.countP isClosing = 0 :=
    countP_of_plain fun c member => not_bracket_of_isWordChar (List.all_eq_true.mp all c member)
  cases isWord with
  | word all => rw [(bare all).1, (bare all).2]
  | @array word _ named =>
    obtain ⟨opened, closed⟩ := bare (isWordChar_of_typeWord word named)
    rw [List.countP_append, List.countP_append, opened, closed]
    rfl

theorem not_bracket_of_numeral (numeral : Numeral u y) :
    ∀ c ∈ u, isOpening c = false ∧ isClosing c = false :=
  numeral.forall_mem (fun _ digit => not_bracket_of_isWordChar (isWordChar_of_isDigit digit)) (by decide)

/-- What a rule reads that stands for one lexeme closes what it opens. -/
theorem Lexical.countP_eq (lexical : Lexical m m' scan) (read : scan text = some u) :
    (unquoted u).countP isOpening = (unquoted u).countP isClosing := by
  have plain {u : List Char} (plain : ∀ c ∈ u, isOpening c = false ∧ isClosing c = false) :
      (unquoted u).countP isOpening = (unquoted u).countP isClosing := by
    rcases unquoted_cases u with same | same
    · rw [same, List.countP_nil, List.countP_nil]
    · rw [same, (countP_of_plain plain).1, (countP_of_plain plain).2]
  have opens := lexical.opens read
  cases lexical.isLexeme read with
  | @word c rest =>
    obtain ⟨behind, -, isWord⟩ := exists_typeOrWord (c :: rest)
    rcases unquoted_cases (typeOrWordOf (c :: rest)) with same | same
    · rw [same, List.countP_nil, List.countP_nil]
    · rw [same, countP_typeOrWord isWord]
  | @numeral c rest =>
    obtain ⟨behind, -, numeral⟩ := exists_numeral (c :: rest)
    exact plain (not_bracket_of_numeral numeral)
  | @quoted quote content inside behind isQuote =>
    have none : unquoted (quote :: (inside ++ [quote])) = [] := by
      rcases isQuote with ⟨rfl, -⟩ | ⟨rfl, -⟩ <;> rfl
    rw [none, List.countP_nil, List.countP_nil]
  | @signed rest =>
    obtain ⟨behind, -, numeral⟩ := exists_numeral rest
    exact plain (List.forall_mem_cons.mpr ⟨by decide, not_bracket_of_numeral numeral⟩)
  | @double c rest double =>
    have marks : doubles.all (fun c => decide (isOpening c = false ∧ isClosing c = false)) = true := by
      decide
    exact plain (List.forall_mem_cons.mpr ⟨of_decide_eq_true (List.all_eq_true.mp marks c double),
      List.forall_mem_singleton.mpr (by decide)⟩)
  | @single c rest single =>
    have marks : singles.all (fun c =>
        decide (opensToken c = true → isOpening c = false ∧ isClosing c = false)) = true := by decide
    exact plain (List.forall_mem_singleton.mpr
      (of_decide_eq_true (List.all_eq_true.mp marks c single) (by simpa using opens)))

end

/-! ## Tokens behind each other -/

/-- The characters in front of `behind` are a mark or a lexeme. -/
def IsPiece (u behind : List Char) : Prop := IsMark u ∨ ∃ m, Lexeme m (u ++ behind) u

theorem IsPiece.ne_nil {u behind : List Char} (piece : IsPiece u behind) : u ≠ [] := by
  rcases piece with mark | ⟨m, isLexeme⟩
  · have marks : ∀ s ∈ singles.map ([·]) ++ doubles.map ([·, '=']), s ≠ [] := by decide
    exact marks u mark
  · exact isLexeme.within.2

/-- The tokens lead from one place to another, with only blanks and comments between them; the numbers
say how many brackets are open in front of them and behind. -/
inductive Trail :
    (depth : Nat) → (l : List Char) → List Token → (depth' : Nat) → (l' : List Char) → Prop
  | nil {d : Nat} {l l' : List Char} : pastGap l = pastGap l' → Trail d l [] d l'
  | cons {d d' d'' : Nat} {l l' : List Char} {t : Token} {tokens : List Token} :
      pastGap l = t.characters ++ t.stop.rest → IsPiece t.characters t.stop.rest →
      d + t.code.countP isOpening = d' + t.code.countP isClosing →
      Trail d' t.stop.rest tokens d'' l' → Trail d l (t :: tokens) d'' l'

namespace Trail

variable {d d' d'' : Nat} {l l' l'' : List Char} {tokens more : List Token} {t : Token}

theorem of_pastGap_eq (same : pastGap l = pastGap l') (trail : Trail d l' tokens d'' l'') :
    Trail d l tokens d'' l'' := by
  cases trail with
  | nil same' => exact .nil (same.trans same')
  | cons begins piece depth rest => exact .cons (same.trans begins) piece depth rest

theorem of_skipGap {c : Cursor} (trail : Trail d c.skipGap.rest tokens d' l') :
    Trail d c.rest tokens d' l' :=
  trail.of_pastGap_eq (by rw [Cursor.rest_skipGap, Cursor.pastGap_pastGap])

theorem append (first : Trail d l tokens d' l') (second : Trail d' l' more d'' l'') :
    Trail d l (tokens ++ more) d'' l'' := by
  induction first with
  | nil same => exact second.of_pastGap_eq same
  | cons begins piece depth _ ih => exact .cons begins piece depth (ih second)

theorem deeper (trail : Trail d l tokens d' l') (k : Nat) : Trail (d + k) l tokens (d' + k) l' := by
  induction trail with
  | nil same => exact .nil same
  | cons begins piece depth _ ih => exact .cons begins piece (by omega) ih

/-- Behind the tokens as many more brackets are open as they open more than they close. -/
theorem depth_eq (trail : Trail d l tokens d' l') : d + openings tokens = d' + closings tokens := by
  induction trail with
  | nil => rfl
  | cons _ _ depth _ ih =>
    rw [openings, closings] at ih ⊢
    rw [List.flatMap_cons, List.countP_append, List.countP_append]
    omega

/-- The tokens up to one of them lead behind it. -/
theorem upTo (trail : Trail d l (tokens ++ t :: more) d'' l'') :
    ∃ d', Trail d l (tokens ++ [t]) d' t.stop.rest := by
  induction tokens generalizing d l with
  | nil =>
    cases trail with
    | cons begins piece depth => exact ⟨_, .cons begins piece depth (.nil rfl)⟩
  | cons s tokens ih =>
    cases trail with
    | cons begins piece depth rest => exact (ih rest).imp fun _ => .cons begins piece depth

theorem single {c : Cursor} {u : List Char} (settled : Settled c) (within : u <+: c.rest)
    (piece : IsPiece u (c.skip u).rest)
    (depth : d + (unquoted u).countP isOpening = d' + (unquoted u).countP isClosing) :
    Trail d c.rest [⟨c, c.skip u⟩] d' (c.skip u).rest := by
  have characters : Token.characters ⟨c, c.skip u⟩ = u := Cursor.textUpTo_skip within
  refine .cons ?_ ?_ ?_ (.nil rfl)
  · obtain ⟨behind, whole⟩ := within
    rw [characters, Cursor.rest_skip, ← whole, List.drop_left, whole]
    exact settled
  · rwa [characters]
  · rwa [Token.code, characters]

theorem mark {c : Cursor} {s : List Char} (settled : Settled c) (within : s <+: c.rest) (mark : IsMark s)
    (depth : d + s.countP isOpening = d' + s.countP isClosing) :
    Trail d c.rest (Reading.ofTerminal .free c (c.skip s)).tokens d' (c.skip s).rest := by
  have piece : IsPiece s (c.skip s).rest := .inl mark
  have moved : c.skip s ≠ c := fun same => by
    have shorter := congrArg (·.rest.length) same
    have fits := within.length_le
    have positive := List.length_pos_iff.mpr piece.ne_nil
    simp only [Cursor.rest_skip, List.length_drop] at shorter
    omega
  have marks : ∀ s ∈ singles.map ([·]) ++ doubles.map ([·, '=']), unquoted s = s := by decide
  rw [Reading.ofTerminal, if_pos ⟨rfl, moved⟩]
  exact single settled within piece (by rwa [marks s mark])

theorem lexeme {rule : Rule} {m m' : Mode} {c : Cursor} {u : List Char} (settled : Settled c)
    (allowed : rule.after m = some m') (token : rule.token c.rest = some u) :
    Trail d c.rest (Reading.ofLexeme rule c u).tokens d (c.skip u).rest := by
  have lexical := Rule.lexical allowed
  have isLexeme := lexical.isLexeme token
  obtain ⟨behind, split⟩ := isLexeme.within.1
  have behind : (c.skip u).rest = behind := by rw [Cursor.rest_skip, ← split, List.drop_left]
  refine single settled isLexeme.within.1 (.inr ⟨m, ?_⟩) (by rw [lexical.countP_eq token])
  rwa [behind, split]

end Trail

/-! ## Patterns -/

/-- The rule is matched where a lexeme begins, and not inside of one. -/
def Rule.isPhrase : Rule → Bool
  | program | expressionInput | reservedWord | stringContent | charContent => false
  | _ => true

namespace Pattern

/-- How many brackets are open behind what the pattern reads, from the number in front; none if that
depends on the text, or if a bracket would be closed that is not open. -/
def depthBehind : Pattern → (depth : Nat) → Option Nat
  | text s, d =>
    if IsMark s ∧ s.countP isClosing ≤ d + s.countP isOpening then
      some (d + s.countP isOpening - s.countP isClosing)
    else none
  | satisfying _, _ => none
  | endOfText, d | absent _, d => some d
  | rule name, d => if name.isPhrase then some d else none
  | seq first second, d => (first.depthBehind d).bind second.depthBehind
  | alt first second, d =>
    if first.depthBehind d = second.depthBehind d then first.depthBehind d else none
  | many item, d | optional item, d => if item.depthBehind d = some d then some d else none

end Pattern

/-- A phrase is one lexeme, or it closes what it opens. -/
theorem Rule.closes {rule : Rule} (known : rule.isPhrase = true) :
    rule.spacing = .free ∧ rule.pattern.depthBehind 0 = some 0 ∨ ∃ m m', rule.after m = some m' := by
  cases rule with
  | program | expressionInput | reservedWord | stringContent | charContent => cases known
  | keyword | typeName | voidType | boolean | float | integer | identifier | string | charLiteral =>
    exact .inr ⟨.fresh, _, rfl⟩
  | numberElement => exact .inr ⟨.listed, _, rfl⟩
  | unaryOperator operator =>
    cases operator with
    | not => exact .inr ⟨.fresh, _, rfl⟩
    | negate => exact .inl (by decide)
  | binaryOperator operator =>
    cases operator with
    | and | or => exact .inr ⟨.fresh, _, rfl⟩
    | _ => exact .inl (by decide)
  | _ => exact .inl (by decide)

def Goal.DepthBehind : Goal → Nat → Nat → Prop
  | one p, d, d' => p.depthBehind d = some d'
  | further item, d, d' => item.depthBehind d = some d ∧ d' = d

/-- The tokens that a goal reads stand behind each other and close no bracket too many. -/
theorem Derives.trail {g : Goal} {c : Cursor} {r : Reading} {d d' : Nat}
    (derived : Derives .free g c (some r)) (depth : g.DepthBehind d d') (ready : g.Ready c) :
    Trail d c.rest r.tokens d' r.rest.rest := by
  generalize spaced : Spacing.free = spacing at derived
  generalize known : some r = o at derived
  induction derived generalizing r d d' with
  | @text _ s c =>
    cases spaced
    obtain ⟨⟨mark, fits⟩, ⟨⟩⟩ := Option.ite_none_right_eq_some.mp depth
    obtain ⟨rest, taken, rfl⟩ := Option.map_eq_some_iff.mp known.symm
    rw [Cursor.takeText_eq, Option.ite_none_right_eq_some] at taken
    obtain ⟨within, ⟨⟩⟩ := taken
    exact .mark ready within mark (by omega)
  | satisfying => cases depth
  | endOfText =>
    obtain ⟨-, ⟨⟩⟩ := Option.ite_none_right_eq_some.mp known.symm
    cases depth
    exact .nil rfl
  | @rule _ rule c inside inner ih =>
    cases spaced
    obtain ⟨phrase, ⟨⟩⟩ := Option.ite_none_right_eq_some.mp depth
    rcases Rule.closes phrase with ⟨free, closes⟩ | ⟨m, m', allowed⟩
    · -- The phrase is followed from no open bracket on, so that it closes none of those around it.
      obtain ⟨r, rfl, rfl⟩ := Option.map_eq_some_iff.mp known.symm
      have trail := (ih closes ready (by rw [Rule.innerSpacing, free]) rfl).deeper d
      rw [Nat.zero_add] at trail
      have tokens : (Reading.ofRule rule .free c r).tokens = r.tokens := if_neg fun both => both.2 free
      rwa [tokens]
    · have whole := (Derives.rule inner).unique (derives_lexeme allowed c)
      rw [whole] at known
      obtain ⟨u, token, rfl⟩ := Option.map_eq_some_iff.mp known.symm
      exact .lexeme ready allowed token
  | seq _ _ ihFirst ihSecond =>
    cases spaced
    obtain ⟨more, rfl, rfl⟩ := Option.map_eq_some_iff.mp known.symm
    obtain ⟨between, before, after⟩ := Option.bind_eq_some_iff.mp depth
    exact (ihFirst before ready rfl rfl).append (ihSecond after (settled_skipGap _) rfl rfl).of_skipGap
  | first _ ih =>
    obtain ⟨-, first⟩ := Option.ite_none_right_eq_some.mp depth
    exact ih first ready spaced known
  | second _ _ _ ih =>
    obtain ⟨same, first⟩ := Option.ite_none_right_eq_some.mp depth
    exact ih (same.symm.trans first) ready spaced known
  | many _ _ ihFirst ihMore =>
    obtain ⟨more, rfl, rfl⟩ := Option.map_eq_some_iff.mp known.symm
    obtain ⟨keeps, ⟨⟩⟩ := Option.ite_none_right_eq_some.mp depth
    exact (ihFirst keeps ready spaced rfl).append (ihMore ⟨keeps, rfl⟩ trivial spaced rfl)
  | again _ _ ihFirst ihMore =>
    cases spaced
    obtain ⟨more, rfl, rfl⟩ := Option.map_eq_some_iff.mp known.symm
    obtain ⟨keeps, rfl⟩ := depth
    have first := (ihFirst keeps (settled_skipGap _) rfl rfl).of_skipGap
    exact first.append (ihMore ⟨keeps, rfl⟩ trivial rfl rfl)
  | manyNone | optionalNone =>
    cases known
    obtain ⟨-, ⟨⟩⟩ := Option.ite_none_right_eq_some.mp depth
    exact .nil rfl
  | done =>
    cases known
    obtain ⟨-, rfl⟩ := depth
    exact .nil rfl
  | optional _ ih =>
    obtain ⟨keeps, ⟨⟩⟩ := Option.ite_none_right_eq_some.mp depth
    exact ih keeps ready spaced known
  | absent =>
    cases known
    cases depth
    exact .nil rfl
  | seqRefused | absentRefused => cases known

/-- The tokens of a program are all that it consists of, and its brackets are closed at its end. -/
theorem Reads.trail {text : List Char} {r : Reading} (reads : Reads .program text r) :
    ∃ l, pastGap l = [] ∧ Trail 0 text r.tokens 0 l := by
  obtain ⟨_, inside, whole⟩ := derives_rule_iff.mp reads
  obtain ⟨inside, rfl, rfl⟩ := Option.map_eq_some_iff.mp whole.symm
  obtain ⟨_, ended, before, atEnd, rfl⟩ := derives_seq_some_iff.mp inside
  obtain ⟨_, statements, nothing, many, rfl⟩ := derives_seq_some_iff.mp before
  obtain rfl := Option.some.inj ((derives_nothing _ _).unique nothing)
  have trail := many.trail (show (Pattern.many statement).depthBehind 0 = some 0 by decide)
    (settled_skipGap (.ofText text))
  have none : statements.rest.skipGap.rest = [] := rest_of_endOfInput atEnd
  have alone : Derives .free (.one (.rule .endOfInput)) statements.rest.skipGap
      (some (.ofRule .endOfInput .free _ (.nothing _))) :=
    derives_rule_iff.mpr ⟨_, derives_endOfText_iff.mpr (if_pos (by rw [none]; rfl)).symm, rfl⟩
  obtain rfl := Option.some.inj (atEnd.unique alone)
  refine ⟨statements.rest.rest, by rw [← Cursor.rest_skipGap, none], ?_⟩
  exact trail.of_skipGap.append (.nil rfl)

end CheckedScript.Grammar
