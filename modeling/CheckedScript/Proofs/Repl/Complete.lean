import CheckedScript.Proofs.Grammar.Brackets
import CheckedScript.Proofs.Grammar.Filler
import CheckedScript.Proofs.Parsing.Verdict
import CheckedScript.Repl.Complete

/-!
# When input is complete

The scan of the prompt knows brackets, quotes and comments, and the grammar knows tokens. Over a gap the
scan stays as it is, and over a token it counts the brackets that the token has outside of quotes. So a
program that is typed up to the end of a token is complete just where its tokens close as many brackets
as they open (`isInputComplete_upTo_token`).
-/

namespace CheckedScript

open Grammar

open Cursor (Gap pastGap pastGapFrom)

open Text (IsQuote)

/-- How many more brackets the characters open than they close. -/
def balance (u : List Char) : Int := u.countP isOpening - u.countP isClosing

@[simp] theorem balance_nil : balance [] = 0 := rfl

theorem balance_append (u v : List Char) : balance (u ++ v) = balance u + balance v := by
  simp only [balance, List.countP_append]
  omega

/-! ## Characters -/

section

variable {c quote : Char} {d : Int} {rest : List Char}

theorem scanBrackets_comment :
    scanBrackets .comment d (c :: rest) = scanBrackets (if c = '\n' then .code else .comment) d rest :=
  rfl

theorem scanBrackets_slashes :
    scanBrackets .code d ('/' :: '/' :: rest) = scanBrackets .comment d rest := rfl

/-- What neither opens a comment nor a quote counts as a bracket, if it is one. -/
theorem scanBrackets_code (noQuote : ¬ IsQuote c) (noComment : c = '/' → rest.head? ≠ some '/') :
    scanBrackets .code d (c :: rest) = scanBrackets .code (d + balance [c]) rest := by
  obtain ⟨noString, noChar⟩ := not_or.mp noQuote
  rw [scanBrackets.eq_4, if_neg noString, if_neg noChar]
  · simp only [balance, List.countP_singleton, isOpening, isClosing, Bool.or_eq_true, beq_iff_eq, or_assoc]
    by_cases opens : c = '\x7b' ∨ c = '[' ∨ c = '('
    · have open' : ¬ (c = '\x7d' ∨ c = ']' ∨ c = ')') := by
        rcases opens with rfl | rfl | rfl <;> decide
      rw [if_pos opens, if_pos opens, if_neg open']
      rfl
    · by_cases closes : c = '\x7d' ∨ c = ']' ∨ c = ')'
      · rw [if_neg opens, if_neg opens, if_pos closes, if_pos closes]
        rfl
      · rw [if_neg opens, if_neg opens, if_neg closes, if_neg closes, Int.sub_self, Int.add_zero]
  · rintro more rfl rfl
    exact noComment rfl rfl

/-- What the scan stands inside of behind this quote. -/
def QuoteState.behind (quote : Char) : QuoteState := if quote = '"' then .string else .char

theorem scanBrackets_quote (quotes : IsQuote quote) :
    scanBrackets .code d (quote :: rest) = scanBrackets (.behind quote) d rest ∧
      scanBrackets (.behind quote) d (quote :: rest) = scanBrackets .code d rest := by
  rcases quotes with rfl | rfl
  · exact ⟨rfl, rfl⟩
  · exact ⟨rfl, rfl⟩

theorem scanBrackets_escape (quotes : IsQuote quote) :
    scanBrackets (.behind quote) d ('\\' :: c :: rest) = scanBrackets (.behind quote) d rest := by
  rcases quotes with rfl | rfl <;> rfl

theorem scanBrackets_plain (quotes : IsQuote quote) (plain : isPlain quote c = true) :
    scanBrackets (.behind quote) d (c :: rest) = scanBrackets (.behind quote) d rest := by
  have other (d : Char) (more : List Char) (escape : c = '\\') : rest = d :: more → False :=
    absurd escape (not_escape_of_isPlain plain)
  have noQuote : c ≠ quote := by
    rintro rfl
    simp [isPlain] at plain
  rcases quotes with rfl | rfl
  · rw [QuoteState.behind, if_pos rfl, scanBrackets.eq_6 _ _ _ other, if_neg noQuote]
  · rw [QuoteState.behind, if_neg (by decide), scanBrackets.eq_7 _ _ _ other, if_neg noQuote]

end

/-! ## Blanks and comments -/

section

variable {c : Char} {d : Int} {rest gap words : List Char}

theorem scanBrackets_blank (blank : Cursor.isBlank c = true) :
    scanBrackets .code d (c :: rest) = scanBrackets .code d rest := by
  have solid : ¬ IsQuote c ∧ c ≠ '/' ∧ balance [c] = 0 := by
    simp only [Cursor.isBlank, Bool.or_eq_true, decide_eq_true_iff] at blank
    rcases blank with ((rfl | rfl) | rfl) | rfl <;> decide
  rw [scanBrackets_code solid.1 fun slash => absurd slash solid.2.1, solid.2.2, Int.add_zero]

theorem scanBrackets_line (line : '\n' ∉ words) :
    scanBrackets .comment d (words ++ '\n' :: rest) = scanBrackets .code d rest := by
  induction words with
  | nil => rfl
  | cons c words ih =>
    rw [List.mem_cons, not_or] at line
    rw [List.cons_append, scanBrackets_comment, if_neg (Ne.symm line.1), ih line.2]

theorem scanBrackets_gap (isGap : Gap gap) :
    scanBrackets .code d (gap ++ rest) = scanBrackets .code d rest := by
  induction isGap with
  | nil => rfl
  | blank blank _ ih => rw [List.cons_append, scanBrackets_blank blank, ih]
  | comment line _ ih =>
    rw [List.cons_append, List.cons_append, scanBrackets_slashes, List.append_assoc, List.cons_append,
      scanBrackets_line line, ih]

/-- A text of nothing but blanks and comments leaves no quote open, but maybe a comment. -/
theorem scanBrackets_ended (inComment : Bool) (text : List Char)
    (ended : pastGapFrom inComment text = []) :
    ∃ state, (state = .code ∨ state = .comment) ∧
      scanBrackets (if inComment then .comment else .code) d text = (d, state) := by
  induction inComment, text using Cursor.pastGap_induction with
  | ended inComment => cases inComment <;> exact ⟨_, by simp, rfl⟩
  | inside c rest ih =>
    rw [Cursor.pastGapFrom_true_cons] at ended
    obtain ⟨state, last, scanned⟩ := ih ended
    refine ⟨state, last, ?_⟩
    rw [← scanned, if_pos rfl, scanBrackets_comment]
    simp
  | blank c rest blank ih =>
    rw [← pastGap, Cursor.pastGap_blank blank] at ended
    obtain ⟨state, last, scanned⟩ := ih ended
    exact ⟨state, last, (scanBrackets_blank blank).trans scanned⟩
  | opens rest ih =>
    rw [← pastGap, Cursor.pastGap_slashes] at ended
    exact ih ended
  | solid c rest solid other =>
    rw [← pastGap, Cursor.pastGap_solid solid other] at ended
    cases ended

end

/-! ## Tokens -/

section

variable {c quote : Char} {d : Int} {read u y behind : List Char} {m : Mode}

/-- The scan reads the character as it is. -/
def IsCounted (c : Char) : Prop := ¬ IsQuote c ∧ c ≠ '/'

instance (c : Char) : Decidable (IsCounted c) := inferInstanceAs (Decidable (_ ∧ _))

theorem isCounted_of_isWordChar (passes : isWordChar c = true) : IsCounted c := by
  have other (d : Char) (special : isWordChar d = false) : c ≠ d := ne_of_isWordChar passes special
  exact ⟨not_or.mpr ⟨other _ (by decide), other _ (by decide)⟩, other _ (by decide)⟩

theorem isCounted_of_typeOrWord (isWord : TypeOrWord u y) : ∀ c ∈ u, IsCounted c :=
  isWord.forall_mem (fun _ => isCounted_of_isWordChar) (by decide)

theorem isCounted_of_numeral (numeral : Numeral u y) : ∀ c ∈ u, IsCounted c :=
  numeral.forall_mem (fun _ digit => isCounted_of_isWordChar (isWordChar_of_isDigit digit)) (by decide)

theorem unquoted_of_counted (counted : ∀ c ∈ u, IsCounted c) : unquoted u = u := by
  cases u with
  | nil => rfl
  | cons c u => exact if_neg (by simp [(counted c (List.mem_cons_self ..)).1])

theorem scanBrackets_counted (counted : ∀ c ∈ u, IsCounted c) :
    scanBrackets .code d (u ++ y) = scanBrackets .code (d + balance (unquoted u)) y := by
  rw [unquoted_of_counted counted]
  induction u generalizing d with
  | nil => rw [balance_nil, Int.add_zero, List.nil_append]
  | cons c u ih =>
    obtain ⟨⟨noQuote, noSlash⟩, more⟩ := List.forall_mem_cons.mp counted
    rw [List.cons_append, scanBrackets_code noQuote fun slash => absurd slash noSlash, ih more,
      Int.add_assoc, ← balance_append, List.singleton_append]

/-- The scan passes over what stands between quotes, up to the one that closes them. -/
theorem scanBrackets_units (quotes : IsQuote quote) (units : Units quote read) :
    scanBrackets (.behind quote) d (read ++ quote :: y) = scanBrackets .code d y := by
  induction units with
  | nil => exact (scanBrackets_quote quotes).2
  | escape _ ih => rw [List.cons_append, List.cons_append, scanBrackets_escape quotes, ih]
  | plain plain _ ih => rw [List.cons_append, scanBrackets_plain quotes plain, ih]

/-- A mark is counted by its characters; a slash opens no comment where no gap begins. -/
theorem scanBrackets_mark (mark : IsMark u) (settled : pastGap (u ++ behind) = u ++ behind)
    (within : y <+: behind) :
    scanBrackets .code d (u ++ y) = scanBrackets .code (d + balance (unquoted u)) y := by
  have marks : ∀ s ∈ singles.map ([·]) ++ doubles.map ([·, '=']),
      s = ['/'] ∨ s.all (fun c => decide (IsCounted c)) = true := by decide
  rcases marks u mark with rfl | all
  · have other := (Cursor.pastGap_eq_self_iff.mp settled).2 rfl
    have other' : y.head? ≠ some '/' := fun begins => by
      obtain ⟨more, rfl⟩ := List.head?_eq_some_iff.mp begins
      obtain ⟨rest, rfl⟩ := within
      exact other rfl
    exact scanBrackets_code (by decide) fun _ => other'
  · exact scanBrackets_counted fun c member => of_decide_eq_true (List.all_eq_true.mp all c member)

/-- Over a token the scan counts the brackets that it has outside of quotes, wherever behind it the text
is cut off. -/
theorem scanBrackets_piece (piece : IsPiece u behind) (settled : pastGap (u ++ behind) = u ++ behind)
    (within : y <+: behind) :
    scanBrackets .code d (u ++ y) = scanBrackets .code (d + balance (unquoted u)) y := by
  rcases piece with mark | ⟨m, isLexeme⟩
  · exact scanBrackets_mark mark settled within
  · generalize split : u ++ behind = text at isLexeme
    cases isLexeme with
    | @word c rest =>
      obtain ⟨_, -, isWord⟩ := exists_typeOrWord (c :: rest)
      exact scanBrackets_counted (isCounted_of_typeOrWord isWord)
    | @numeral c rest =>
      obtain ⟨_, -, numeral⟩ := exists_numeral (c :: rest)
      exact scanBrackets_counted (isCounted_of_numeral numeral)
    | @quoted quote content read _ quoted here =>
      have quotes : IsQuote quote := quoted.imp And.left And.left
      have none : unquoted (quote :: (read ++ [quote])) = [] := if_pos (by simpa using quotes)
      rw [none, balance_nil, Int.add_zero, List.cons_append, List.append_assoc, List.singleton_append,
        (scanBrackets_quote quotes).1, scanBrackets_units quotes (units_of_scan quoted here)]
    | @signed rest =>
      obtain ⟨_, -, numeral⟩ := exists_numeral rest
      exact scanBrackets_counted (List.forall_mem_cons.mpr ⟨by decide, isCounted_of_numeral numeral⟩)
    | double double =>
      exact scanBrackets_mark (List.mem_append_right _ (List.mem_map_of_mem double)) settled within
    | single single =>
      exact scanBrackets_mark (List.mem_append_left _ (List.mem_map_of_mem single)) settled within

end

/-! ## Programs -/

section

variable {d d' : Nat} {l l' : List Char} {tokens : List Token} {t : Token}

/-- In front of a token stands a gap. -/
theorem exists_gap_piece {u y : List Char} (begins : pastGap l = u ++ y) (piece : IsPiece u y) :
    ∃ gap, Gap gap ∧ l = gap ++ (u ++ y) ∧ pastGap (u ++ y) = u ++ y := by
  have more : pastGap l ≠ [] := by
    rw [begins]
    exact List.append_ne_nil_of_left_ne_nil piece.ne_nil y
  obtain ⟨gap, isGap, split⟩ := Cursor.exists_gap more
  exact ⟨gap, isGap, begins ▸ split, by rw [← begins, Cursor.pastGap_pastGap]⟩

theorem balance_code (depth : d + t.code.countP isOpening = d' + t.code.countP isClosing) :
    (d : Int) + balance (unquoted t.characters) = d' := by
  rw [Token.code] at depth
  rw [balance]
  omega

/-- Up to the end of the last token the scan counts the brackets that are open there. -/
theorem scanBrackets_upTo (trail : Trail d l (tokens ++ [t]) d' l') :
    ∃ front, l = front ++ t.stop.rest ∧ scanBrackets .code d front = ((d' : Int), .code) := by
  induction tokens generalizing d l with
  | nil =>
    cases trail with
    | cons begins piece depth rest =>
      cases rest with
      | nil =>
        obtain ⟨gap, isGap, split, settled⟩ := exists_gap_piece begins piece
        refine ⟨gap ++ t.characters, by rw [split, List.append_assoc], ?_⟩
        have scanned := scanBrackets_piece (d := d) piece settled List.nil_prefix
        rw [List.append_nil, balance_code depth] at scanned
        rw [scanBrackets_gap isGap, scanned]
        rfl
  | cons s tokens ih =>
    cases trail with
    | cons begins piece depth rest =>
      obtain ⟨gap, isGap, split, settled⟩ := exists_gap_piece begins piece
      obtain ⟨front, whole, scanned⟩ := ih rest
      refine ⟨gap ++ (s.characters ++ front), by rw [split, whole]; simp, ?_⟩
      rw [scanBrackets_gap isGap, scanBrackets_piece piece settled ⟨_, whole.symm⟩,
        balance_code depth, scanned]

/-- Where nothing but a gap is left behind the tokens, the scan leaves no quote open. -/
theorem scanBrackets_whole (trail : Trail d l tokens d' l') (ended : pastGap l' = []) :
    ∃ state, (state = .code ∨ state = .comment) ∧ scanBrackets .code d l = ((d' : Int), state) := by
  induction trail with
  | nil same => exact scanBrackets_ended false _ (same.trans ended)
  | cons begins piece depth _ ih =>
    obtain ⟨gap, isGap, split, settled⟩ := exists_gap_piece begins piece
    obtain ⟨state, last, scanned⟩ := ih ended
    refine ⟨state, last, ?_⟩
    rw [split, scanBrackets_gap isGap, scanBrackets_piece piece settled List.prefix_rfl,
      balance_code depth, scanned]

theorem isInputComplete_of_scan {input : String} {depth : Int} {state : QuoteState}
    (scanned : scanBrackets .code 0 input.toList = (depth, state))
    (closed : state = .code ∨ state = .comment) : isInputComplete input = decide (depth ≤ 0) := by
  rw [isInputComplete, scanned]
  rcases closed with rfl | rfl
  · exact (Bool.and_true _).trans (Bool.and_true _)
  · exact (Bool.and_true _).trans (Bool.and_true _)

end

/-- A program is complete. What is typed of it up to the end of a token is complete just if the tokens
so far close as many brackets as they open outside of quoted literals. -/
theorem isInputComplete_upTo_token {source : String} {program : Program}
    (parsed : Parsing.parseProgram source = .ok program) :
    isInputComplete source = true ∧
      ∃ r, Reads .program source.toList r ∧ ∀ before t after, r.tokens = before ++ t :: after →
        ∃ front, source.toList = front ++ t.stop.rest ∧
          (isInputComplete (.ofList front) = true ↔
            closings (before ++ [t]) = openings (before ++ [t])) := by
  rcases Parsing.readText_cases .program source.toList with
    ⟨n, r, reads, -⟩ | ⟨-, place, expected, found⟩
  · obtain ⟨l, ended, trail⟩ := reads.trail
    obtain ⟨state, last, scanned⟩ := scanBrackets_whole trail ended
    refine ⟨isInputComplete_of_scan scanned last, r, reads, fun before t after listed => ?_⟩
    rw [listed] at trail
    obtain ⟨d, upTo⟩ := trail.upTo
    obtain ⟨front, split, scanned⟩ := scanBrackets_upTo upTo
    rw [← String.toList_ofList (l := front)] at scanned
    have counted := upTo.depth_eq
    refine ⟨front, split, ?_⟩
    rw [isInputComplete_of_scan scanned (.inl rfl), decide_eq_true_iff]
    omega
  · rw [Parsing.parseProgram, found] at parsed
    cases parsed

/-- A bracket in a quoted literal or in a comment is not waited for. -/
theorem isInputComplete_upTo_token_quoted :
    let source := "if x == '\x7b' \x7b print x; \x7d // ["
    let front := "if x == '\x7b'".toList
    ∃ program r before t after, Parsing.parseProgram source = .ok program ∧
      isInputComplete source = true ∧ Reads .program source.toList r ∧ r.tokens = before ++ t :: after ∧
      source.toList = front ++ t.stop.rest ∧ closings (before ++ [t]) = openings (before ++ [t]) := by
  intro source front
  have parses : (Parsing.parseProgram source).toOption.isSome = true := by decide +kernel
  have passes : ((Parsing.readText .program source.toList).toOption.map fun n =>
      n.tokens.any fun t => front ++ t.stop.rest == source.toList) = some true := by decide +kernel
  cases parsed : Parsing.parseProgram source with
  | error =>
    rw [parsed] at parses
    cases parses
  | ok program =>
    obtain ⟨complete, r, reads, upTo⟩ := isInputComplete_upTo_token parsed
    obtain ⟨t, inside, behind⟩ : ∃ t ∈ r.tokens, front ++ t.stop.rest = source.toList := by
      rcases Parsing.readText_cases .program source.toList with
        ⟨n, r', reads', listed, -, -, -, found⟩ | ⟨none, -⟩
      · obtain rfl : r' = r := Option.some.inj (reads'.unique reads)
        rw [found] at passes
        obtain ⟨t, inside, behind⟩ := List.any_eq_true.mp (Option.some.inj passes)
        refine ⟨t, Derives.listTokens_subset reads ?_, beq_iff_eq.mp behind⟩
        rwa [listed, Node.listTokens, Node.listTokens, List.append_nil]
      · exact absurd reads (none r)
    obtain ⟨before, after, listed⟩ := List.append_of_mem inside
    obtain ⟨front', split, iff⟩ := upTo before t after listed
    obtain rfl : front' = front := List.append_cancel_right (split.symm.trans behind.symm)
    exact ⟨program, r, before, t, after, rfl, complete, reads, listed, split, iff.mp (by decide +kernel)⟩

end CheckedScript
