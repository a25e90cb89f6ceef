import CheckedScript.Proofs.Grammar.Flow

/-!
# What blanks and comments do not change

Two texts are alike if the same lexemes follow each other in them. Whatever the grammar comes to in a
text, failures of alternatives and of lookahead included, it comes to in one that is alike
(`Derives.alike`); the trees differ in places only.
-/

namespace CheckedScript.Grammar

open Cursor (pastGap)

/-! ## Texts and trees -/

/-- The same lexemes follow each other from here on, up to where no text or no lexeme is left. -/
inductive Alike : Mode → List Char → List Char → Prop
  | stuck {m : Mode} {l l' : List Char} :
      (∀ u, ¬ Lexeme m l u) → (∀ u, ¬ Lexeme m l' u) → l.isEmpty = l'.isEmpty → Alike m l l'
  | lexeme {m : Mode} {l l' u : List Char} :
      Lexeme m l u → Lexeme m l' u →
      Alike (m.next u) (pastGap (l.drop u.length)) (pastGap (l'.drop u.length)) → Alike m l l'

mutual

/-- The nodes record matches of the same rules, and where no blanks may stand of the same
characters. -/
inductive Node.Alike : Node → Node → Prop
  | mk {rule : Rule} {start stop start' stop' : Cursor} {children children' : List Node} :
      (rule.spacing ≠ .free → (Node.mk rule start stop children).characters =
        (Node.mk rule start' stop' children').characters) →
      Node.AllAlike children children' →
      Node.Alike (.mk rule start stop children) (.mk rule start' stop' children')

inductive Node.AllAlike : List Node → List Node → Prop
  | nil : Node.AllAlike [] []
  | cons {n n' : Node} {rest rest' : List Node} :
      Node.Alike n n' → Node.AllAlike rest rest' → Node.AllAlike (n :: rest) (n' :: rest')

end

theorem Node.AllAlike.append {front front' back back' : List Node} :
    AllAlike front front' → AllAlike back back' → AllAlike (front ++ back) (front' ++ back')
  | .nil, more => more
  | .cons here rest, more => .cons here (rest.append more)

namespace Node

variable {n n' : Node} {rest nodes : List Node}

theorem Alike.rule_eq (alike : n.Alike n') : n'.rule = n.rule := by
  cases alike
  rfl

theorem Alike.characters_eq (alike : n.Alike n') (closed : n.rule.spacing ≠ .free) :
    n'.characters = n.characters := by
  cases alike with
  | mk same _ => exact (same closed).symm

theorem Alike.children (alike : n.Alike n') : AllAlike n.children n'.children := by
  cases alike with
  | mk _ children => exact children

theorem Alike.exists_mk {rule : Rule} {start stop : Cursor} {children : List Node}
    (alike : (Node.mk rule start stop children).Alike n') :
    ∃ start' stop' children', n' = .mk rule start' stop' children' ∧ AllAlike children children' := by
  cases alike with
  | mk _ below => exact ⟨_, _, _, rfl, below⟩

theorem allAlike_nil_iff : AllAlike [] nodes ↔ nodes = [] := by
  constructor
  · rintro ⟨⟩
    rfl
  · rintro rfl
    exact .nil

theorem allAlike_cons_iff :
    AllAlike (n :: rest) nodes ↔ ∃ n' rest', nodes = n' :: rest' ∧ n.Alike n' ∧ AllAlike rest rest' := by
  constructor
  · rintro ⟨⟩
    exact ⟨_, _, rfl, ‹_›, ‹_›⟩
  · rintro ⟨n', rest', rfl, here, others⟩
    exact .cons here others

theorem AllAlike.filter (keep : Rule → Bool) {nodes nodes' : List Node} (alike : AllAlike nodes nodes') :
    AllAlike (nodes.filter fun n => keep n.rule) (nodes'.filter fun n => keep n.rule) := by
  induction nodes generalizing nodes' with
  | nil =>
    obtain rfl := allAlike_nil_iff.mp alike
    exact .nil
  | cons n rest ih =>
    obtain ⟨n', rest', rfl, here, others⟩ := allAlike_cons_iff.mp alike
    rw [List.filter_cons, List.filter_cons, here.rule_eq]
    split
    · exact .cons here (ih others)
    · exact ih others

end Node

/-! ## Places -/

/-- The lexemes of the text, from its beginning or from behind one, lead on to this place. -/
inductive Passes : (m : Mode) → (l : List Char) → (m' : Mode) → (l' : List Char) → Prop
  | here {m : Mode} {l : List Char} : Passes m l m l
  | step {m m' : Mode} {l l' u : List Char} :
      Lexeme m l u → Passes (m.next u) (pastGap (l.drop u.length)) m' l' → Passes m l m' l'

theorem Passes.behind {m m' : Mode} {l l' u : List Char} (passes : Passes m l m' l')
    (isLexeme : Lexeme m' l' u) : Passes m l (m'.next u) (pastGap (l'.drop u.length)) := by
  induction passes with
  | here => exact .step isLexeme .here
  | step first _ ih => exact .step first (ih isLexeme)

section

variable {text : List Char}

/-- A lexeme of the text ends here. -/
def Ends (text rest : List Char) : Prop :=
  ∃ m l u, Passes .fresh (pastGap text) m l ∧ Lexeme m l u ∧ rest = l.drop u.length

/-- Corresponding places of the text and of another one. -/
def At (text : List Char) : Place → Cursor → Cursor → Prop
  | some m, c, c' =>
    Passes .fresh (pastGap text) m (pastGap c.rest) ∧ Alike m (pastGap c.rest) (pastGap c'.rest)
  | none, c, c' => c.rest.head? = some '=' ∧ c'.rest.head? = some '='

theorem pastGap_equals {rest : List Char} (equals : rest.head? = some '=') : pastGap rest = rest := by
  obtain ⟨more, rfl⟩ := List.head?_eq_some_iff.mp equals
  exact Cursor.pastGap_solid (by decide) nofun

theorem At.gap {q : Place} {c c' : Cursor} (at' : At text q c c') :
    At text q c.skipGap c'.skipGap := by
  cases q with
  | none =>
    obtain ⟨equals, equals'⟩ := at'
    rw [At, Cursor.rest_skipGap, Cursor.rest_skipGap, pastGap_equals equals, pastGap_equals equals']
    exact ⟨equals, equals'⟩
  | some m =>
    rw [At, Cursor.rest_skipGap, Cursor.rest_skipGap, Cursor.pastGap_pastGap, Cursor.pastGap_pastGap]
    exact at'

/-- No gap stands in front of the cursor. -/
def Settled (c : Cursor) : Prop := pastGap c.rest = c.rest

theorem settled_skipGap (c : Cursor) : Settled c.skipGap := by
  rw [Settled, Cursor.rest_skipGap, Cursor.pastGap_pastGap]

/-- What a goal comes to in the text and in the other one, if it is asked for at `q` and leads to
`qs`. -/
inductive Follows (text : List Char) (q : Place) (qs : List Place) :
    Option Reading → Option Reading → Prop
  | refused : Follows text q qs none none
  | read {r r' : Reading} {q' : Place} :
      q' ∈ qs → At text q' r.rest r'.rest →
      (q' ≠ none → q ≠ none ∧ ∀ t ∈ r.tokens, Ends text t.stop.rest) →
      Node.AllAlike r.nodes r'.nodes → Follows text q qs (some r) (some r')

theorem Follows.mono {q : Place} {qs qs' : List Place} {o o' : Option Reading}
    (follows : Follows text q qs o o') (within : qs ⊆ qs') : Follows text q qs' o o' := by
  cases follows with
  | refused => exact .refused
  | read member place tokens nodes => exact .read (within member) place tokens nodes

theorem Follows.isSome_eq {q : Place} {qs : List Place} {o o' : Option Reading}
    (follows : Follows text q qs o o') : o.isSome = o'.isSome := by
  cases follows <;> rfl

theorem follows_nothing {q : Place} {qs : List Place} {c c' : Cursor} (member : q ∈ qs)
    (at' : At text q c c') : Follows text q qs (some (.nothing c)) (some (.nothing c')) :=
  .read member at' (fun inside => ⟨inside, List.forall_mem_nil _⟩) .nil

/-- What is read further on follows what was read. -/
theorem Follows.followedBy {q q' : Place} {qs : List Place} {r r' : Reading} {o o' : Option Reading}
    (tokens : q' ≠ none → q ≠ none ∧ ∀ t ∈ r.tokens, Ends text t.stop.rest)
    (nodes : Node.AllAlike r.nodes r'.nodes) (more : Follows text q' qs o o') :
    Follows text q qs (o.map r.followedBy) (o'.map r'.followedBy) := by
  cases more with
  | refused => exact .refused
  | read member place tokens' nodes' =>
    refine .read member place (fun inside => ?_) (nodes.append nodes')
    obtain ⟨inside', later⟩ := tokens' inside
    obtain ⟨inside'', earlier⟩ := tokens inside'
    exact ⟨inside'', List.forall_mem_append.mpr ⟨earlier, later⟩⟩

/-! ## Marks and lexemes -/

section

variable {c c' : Cursor} {q : Place} {qs : List Place} {s : List Char} {rule : Rule}

/-- A lexeme that is read at corresponding places leads to such places again. -/
theorem at_skip {m : Mode} {u : List Char} (settled : Settled c)
    (passes : Passes .fresh (pastGap text) m (pastGap c.rest)) (isLexeme : Lexeme m c.rest u)
    (alike : Alike (m.next u) (pastGap (c.rest.drop u.length)) (pastGap (c'.rest.drop u.length))) :
    At text (some (m.next u)) (c.skip u) (c'.skip u) ∧ Ends text (c.skip u).rest := by
  rw [Settled] at settled
  rw [settled] at passes
  exact ⟨⟨passes.behind isLexeme, alike⟩, m, c.rest, u, passes, isLexeme, rfl⟩

theorem follows_text (flows : (Pattern.text s).flow q = some qs) (at' : At text q c c')
    (settled : Settled c) (settled' : Settled c') :
    Follows text q qs ((c.takeText s).map (.ofTerminal .free c))
      ((c'.takeText s).map (.ofTerminal .free c')) := by
  rw [Cursor.takeText_eq, Cursor.takeText_eq]
  cases q with
  | none =>
    obtain ⟨other, -⟩ := Option.ite_none_right_eq_some.mp flows
    have refused (rest : List Char) (equals : rest.head? = some '=') : ¬ s <+: rest := by
      rintro ⟨behind, rfl⟩
      cases s with
      | nil => cases other
      | cons d s =>
        rw [List.cons_append, List.head?_cons] at equals
        simp [Option.some.inj equals] at other
    rw [if_neg (refused _ at'.1), if_neg (refused _ at'.2)]
    exact .refused
  | some m =>
    obtain ⟨⟨mark, unsigned⟩, ⟨⟩⟩ := Option.ite_none_right_eq_some.mp flows
    obtain ⟨passes, alike⟩ := at'
    have alike' := alike
    rw [settled, settled'] at alike'
    cases alike' with
    | stuck ended ended' =>
      have refused (rest : List Char) (ended : ∀ u, ¬ Lexeme m rest u) : ¬ s <+: rest := by
        intro within
        rcases lexeme_of_prefix within mark unsigned with whole | ⟨-, half⟩
        · exact ended _ whole
        · exact ended _ half
      rw [if_neg (refused _ ended), if_neg (refused _ ended')]
      exact .refused
    | @lexeme _ _ _ u isLexeme isLexeme' behind =>
      by_cases within : s <+: c.rest
      · have within' : s <+: c'.rest :=
          (isLexeme'.prefix_iff mark unsigned).mpr ((isLexeme.prefix_iff mark unsigned).mp within)
        rw [if_pos within, if_pos within']
        rcases lexeme_of_prefix within mark unsigned with whole | ⟨isHalf, half⟩
        · obtain rfl := isLexeme.unique whole
          obtain ⟨place, ends⟩ := at_skip settled passes isLexeme behind
          refine .read (List.mem_cons_self ..) place (fun inside => ⟨nofun, ?_⟩) .nil
          rw [Reading.ofTerminal]
          split
          · exact List.forall_mem_singleton.mpr ends
          · exact List.forall_mem_nil _
        · obtain rfl := isLexeme.unique half
          have equals (rest : List Char) (whole : s ++ ['='] <+: rest) :
              (rest.drop s.length).head? = some '=' := by
            obtain ⟨behind, rfl⟩ := whole
            simp
          refine .read (show none ∈ _ from ?_) ⟨equals _ isLexeme.within.1, equals _ isLexeme'.within.1⟩
            (fun inside => absurd rfl inside) .nil
          rw [if_pos isHalf]
          exact List.mem_cons_of_mem _ (List.mem_singleton_self _)
      · have without : ¬ s <+: c'.rest := fun within' => within
          ((isLexeme.prefix_iff mark unsigned).mpr ((isLexeme'.prefix_iff mark unsigned).mp within'))
        rw [if_neg within, if_neg without]
        exact .refused

/-- The nodes inside a lexeme: a quoted literal keeps its content. -/
def Rule.inside (rule : Rule) (c : Cursor) (u : List Char) : List Node :=
  match rule with
  | string => [.mk stringContent (c.skip ['"']) (c.skip u.dropLast) []]
  | charLiteral => [.mk charContent (c.skip ['\'']) (c.skip u.dropLast) []]
  | _ => []

/-- What a rule comes to that stands for one lexeme. -/
def Reading.ofLexeme (rule : Rule) (c : Cursor) (u : List Char) : Reading :=
  ⟨[.mk rule c (c.skip u) (rule.inside c u)], [⟨c, c.skip u⟩], c.skip u⟩

theorem derives_lexeme {m m' : Mode} (allowed : rule.after m = some m') (c : Cursor) :
    Derives .free (.one (.rule rule)) c ((rule.token c.rest).map (.ofLexeme rule c)) := by
  have bare (closed : rule.spacing = .sealed) (token : rule.token = rule.scan)
      (inside : ∀ c u, rule.inside c u = []) :
      Derives .free (.one (.rule rule)) c ((rule.token c.rest).map (.ofLexeme rule c)) := by
    have same : (fun u => Reading.ofRule rule .free c ⟨[], [], c.skip u⟩) = .ofLexeme rule c := by
      funext u
      rw [Reading.ofLexeme, Reading.ofRule, inside, closed]
      rfl
    have whole := derives_sealed closed .free c
    rwa [← token, same] at whole
  have quoted {quote : Char} {content : Rule}
      (shape : rule.pattern = .text [quote] ++ .rule content ++ .text [quote])
      (tight : rule.spacing = .tight) (closed : content.spacing = .sealed)
      (token : rule.token = quoteOf quote content.scan)
      (inside : ∀ c u, rule.inside c u = [.mk content (c.skip [quote]) (c.skip u.dropLast) []]) :
      Derives .free (.one (.rule rule)) c ((rule.token c.rest).map (.ofLexeme rule c)) := by
    have same : (fun read => Reading.ofRule rule .free c
        ⟨[.mk content (c.skip [quote]) (c.skip (quote :: read)) []], [],
          c.skip (quote :: (read ++ [quote]))⟩) =
            Reading.ofLexeme rule c ∘ fun read => quote :: (read ++ [quote]) := by
      funext read
      have front : (quote :: (read ++ [quote])).dropLast = quote :: read := by
        rw [← List.cons_append, List.dropLast_concat]
      rw [Function.comp_apply, Reading.ofLexeme, Reading.ofRule, inside, tight, front]
      rfl
    have whole := derives_quoted shape tight closed .free c
    rwa [same, ← Option.map_map, ← quoteOf, ← token] at whole
  cases rule with
  | string => exact quoted rfl rfl rfl rfl fun _ _ => rfl
  | charLiteral => exact quoted rfl rfl rfl rfl fun _ _ => rfl
  | unaryOperator operator =>
    cases operator with
    | negate => cases allowed
    | not => exact bare rfl rfl fun _ _ => rfl
  | binaryOperator operator =>
    cases operator with
    | and | or => exact bare rfl rfl fun _ _ => rfl
    | _ => cases allowed
  | keyword | typeName | voidType | boolean | float | integer | identifier | numberElement =>
    exact bare rfl rfl fun _ _ => rfl
  | _ => cases allowed

theorem alike_ofLexeme {m m' : Mode} {u : List Char} (allowed : rule.after m = some m')
    (token : rule.token c.rest = some u) (token' : rule.token c'.rest = some u) :
    Node.AllAlike (Reading.ofLexeme rule c u).nodes (Reading.ofLexeme rule c' u).nodes := by
  have within := ((Rule.lexical allowed).isLexeme token).within.1
  have within' := ((Rule.lexical allowed).isLexeme token').within.1
  have content {quote : Char} {content : Rule} (quoted : ∃ read, u = quote :: (read ++ [quote])) :
      Node.Alike (.mk content (c.skip [quote]) (c.skip u.dropLast) [])
        (.mk content (c'.skip [quote]) (c'.skip u.dropLast) []) := by
    obtain ⟨read, rfl⟩ := quoted
    have front : (quote :: (read ++ [quote])).dropLast = quote :: read := by
      rw [← List.cons_append, List.dropLast_concat]
    have characters (c : Cursor) (within : quote :: (read ++ [quote]) <+: c.rest) :
        (c.skip [quote]).textUpTo (c.skip (quote :: read)) = read := by
      obtain ⟨behind, whole⟩ := within
      have skipped : c.skip (quote :: read) = (c.skip [quote]).skip read := c.skip_append [quote] read
      rw [skipped]
      refine Cursor.textUpTo_skip ⟨quote :: behind, ?_⟩
      rw [Cursor.rest_skip, ← whole]
      simp
    rw [front]
    exact .mk (fun _ => (characters c within).trans (characters c' within').symm) .nil
  refine .cons (.mk (fun _ => ?_) ?_) .nil
  · exact (Cursor.textUpTo_skip within).trans (Cursor.textUpTo_skip within').symm
  · cases rule with
    | string =>
      obtain ⟨read, -, -, -, same⟩ := (quoteOf_eq_some_iff rfl).mp token
      exact .cons (content ⟨read, same⟩) .nil
    | charLiteral =>
      obtain ⟨read, -, -, -, same⟩ := (quoteOf_eq_some_iff rfl).mp token
      exact .cons (content ⟨read, same⟩) .nil
    | _ => exact .nil

theorem follows_lexeme (closed : rule.spacing ≠ .free) (flows : rule.flow q = some qs)
    (at' : At text q c c') (settled : Settled c) (settled' : Settled c') :
    ∃ o o', Derives .free (.one (.rule rule)) c o ∧ Derives .free (.one (.rule rule)) c' o' ∧
      Follows text q qs o o' := by
  cases q with
  | none =>
    obtain ⟨m, m', allowed⟩ : ∃ m m', rule.after m = some m' := by
      obtain ⟨operand | fresh | listed, -⟩ := Option.ite_none_right_eq_some.mp flows
      · have open' : ∀ rule ∈ Rule.operands, rule.spacing = .free := by decide
        exact absurd (open' rule operand) closed
      · exact ⟨_, Option.isSome_iff_exists.mp fresh⟩
      · exact ⟨_, Option.isSome_iff_exists.mp listed⟩
    have refused (c : Cursor) (equals : c.rest.head? = some '=') : rule.token c.rest = none := by
      refine Option.eq_none_iff_forall_ne_some.mpr fun u token => ?_
      have opens := (Rule.lexical allowed).opens token
      rw [equals] at opens
      exact absurd opens (by decide)
    have derived := derives_lexeme allowed c
    have derived' := derives_lexeme allowed c'
    rw [refused c at'.1] at derived
    rw [refused c' at'.2] at derived'
    exact ⟨_, _, derived, derived', .refused⟩
  | some m =>
    rw [Rule.flow, if_neg closed] at flows
    obtain ⟨m', allowed, rfl⟩ := Option.map_eq_some_iff.mp flows
    refine ⟨_, _, derives_lexeme allowed c, derives_lexeme allowed c', ?_⟩
    obtain ⟨passes, alike⟩ := at'
    have alike' := alike
    rw [settled, settled'] at alike'
    have lexical := Rule.lexical allowed
    cases alike' with
    | stuck ended ended' =>
      have refused (rest : List Char) (ended : ∀ u, ¬ Lexeme m rest u) : rule.token rest = none :=
        Option.eq_none_iff_forall_ne_some.mpr fun u token => ended u (lexical.isLexeme token)
      rw [refused _ ended, refused _ ended']
      exact .refused
    | @lexeme _ _ _ u isLexeme isLexeme' behind =>
      have same : rule.token c'.rest = rule.token c.rest :=
        (lexical.eq_alone isLexeme').trans (lexical.eq_alone isLexeme).symm
      cases token : rule.token c.rest with
      | none =>
        rw [same, token]
        exact .refused
      | some v =>
        rw [same, token]
        obtain rfl := isLexeme.unique (lexical.isLexeme token)
        obtain ⟨place, ends⟩ := at_skip settled passes isLexeme behind
        rw [lexical.next token] at place
        exact .read (List.mem_singleton_self _) place
          (fun _ => ⟨nofun, List.forall_mem_singleton.mpr ends⟩)
          (alike_ofLexeme allowed token (same.trans token))

end

/-! ## Goals -/

/-- The goal may be asked for at the place and leads to the others. -/
def Goal.Flows : Goal → Place → List Place → Prop
  | one p, q, qs => p.flow q = some qs
  | further item, q, qs => q ∈ qs ∧ ∀ q' ∈ qs, ∃ here, item.flow q' = some here ∧ here ⊆ qs

/-- The goal is asked for where no gap stands, or looks behind the gap itself. -/
def Goal.Ready : Goal → Cursor → Prop
  | one _, c => Settled c
  | further _, _ => True

/-- An equals sign that must not follow is looked for at corresponding places. -/
theorem follows_absent {item : Pattern} {c c' : Cursor} {q : Place} {qs : List Place} {o : Option Reading}
    (derived : Derives .free (.one item) c o) (flows : (Pattern.absent item).flow q = some qs)
    (at' : At text q c c') (settled : Settled c) (settled' : Settled c') :
    ∃ o', Derives .free (.one item) c' o' ∧
      (o.isSome = o'.isSome ∧ (o = none → Follows text q qs (some (.nothing c)) (some (.nothing c')))) := by
  obtain ⟨rfl, rfl⟩ := Pattern.flow_absent flows
  obtain rfl := derives_text_iff.mp derived
  refine ⟨_, .text, ?_⟩
  cases q with
  | none =>
    have taken (c : Cursor) (equals : c.rest.head? = some '=') :
        ((c.takeText ['=']).map (Reading.ofTerminal .free c)).isSome = true := by
      obtain ⟨rest, whole⟩ := List.head?_eq_some_iff.mp equals
      rw [Cursor.takeText_eq, if_pos ⟨rest, whole.symm⟩]
      rfl
    refine ⟨(taken c at'.1).trans (taken c' at'.2).symm, fun none => ?_⟩
    have some := taken c at'.1
    rw [none] at some
    cases some
  | some m =>
    have allowed : IsMark ['='] ∧ (m = .listed → (['='] : List Char) ≠ ['-']) := by
      exact ⟨by decide, fun _ => by decide⟩
    have runs : (Pattern.text ['=']).flow (some m) = some _ := if_pos allowed
    exact ⟨(follows_text runs at' settled settled').isSome_eq,
      fun _ => follows_nothing (List.mem_singleton_self _) at'⟩

theorem follows_endOfText {c c' : Cursor} {q : Place} {qs : List Place}
    (flows : Pattern.endOfText.flow q = some qs) (at' : At text q c c') (settled : Settled c)
    (settled' : Settled c') :
    Follows text q qs (if c.rest.isEmpty then some (.nothing c) else none)
      (if c'.rest.isEmpty then some (.nothing c') else none) := by
  have same : c.rest.isEmpty = c'.rest.isEmpty := by
    cases q with
    | none =>
      obtain ⟨rest, whole⟩ := List.head?_eq_some_iff.mp at'.1
      obtain ⟨rest', whole'⟩ := List.head?_eq_some_iff.mp at'.2
      rw [whole, whole']
      rfl
    | some m =>
      obtain ⟨-, alike⟩ := at'
      rw [settled, settled'] at alike
      cases alike with
      | stuck _ _ same => exact same
      | lexeme isLexeme isLexeme' =>
        have more {rest u : List Char} (isLexeme : Lexeme m rest u) : rest.isEmpty = false := by
          rw [List.isEmpty_eq_false_iff]
          rintro rfl
          cases isLexeme
        rw [more isLexeme, more isLexeme']
  rw [← same]
  by_cases ended : c.rest.isEmpty = true
  · rw [if_pos ended, if_pos ended]
    cases q with
    | none =>
      obtain ⟨rest, whole⟩ := List.head?_eq_some_iff.mp at'.1
      rw [whole] at ended
      cases ended
    | some m =>
      cases flows
      exact follows_nothing (List.mem_singleton_self _) at'
  · rw [if_neg ended, if_neg ended]
    exact .refused

/-- What a goal comes to does not depend on the blanks and comments between the lexemes. -/
theorem Derives.alike {g : Goal} {c c' : Cursor} {o : Option Reading} {q : Place} {qs : List Place}
    (derived : Derives .free g c o) (flows : g.Flows q qs) (at' : At text q c c')
    (ready : g.Ready c) (ready' : g.Ready c') :
    ∃ o', Derives .free g c' o' ∧ Follows text q qs o o' := by
  generalize spaced : Spacing.free = spacing at derived
  induction derived generalizing c' q qs with
  | text =>
    cases spaced
    exact ⟨_, .text, follows_text flows at' ready ready'⟩
  | satisfying => cases q <;> cases flows
  | endOfText =>
    cases spaced
    exact ⟨_, .endOfText, follows_endOfText flows at' ready ready'⟩
  | @rule _ rule start inside inner ih =>
    cases spaced
    by_cases open' : rule.spacing = .free
    · have free : rule.innerSpacing .free = .free := by rw [Rule.innerSpacing, open']
      obtain ⟨qs', flows', within⟩ := Rule.flow_pattern open' flows
      obtain ⟨inside', derived', follows⟩ := ih flows' at' ready ready' free.symm
      refine ⟨_, .rule derived', ?_⟩
      cases follows with
      | refused => exact .refused
      | read member place tokens nodes =>
        have kept (r : Reading) : (Reading.ofRule rule .free start r).tokens = r.tokens :=
          if_neg fun both => both.2 open'
        refine .read (within member) place ?_ (.cons (.mk (absurd open') nodes) .nil)
        rw [kept]
        exact tokens
    · obtain ⟨o, o', derived, derived', follows⟩ := follows_lexeme open' flows at' ready ready'
      rw [Derives.unique (.rule inner) derived]
      exact ⟨o', derived', follows⟩
  | seq _ _ ihFirst ihSecond =>
    cases spaced
    obtain ⟨here, before, after⟩ := Pattern.flow_seq.mp flows
    obtain ⟨_, derived, follows⟩ := ihFirst before at' ready ready' rfl
    cases follows with
    | read member place tokens nodes =>
      obtain ⟨there, later, within⟩ := gather_eq_some after _ member
      obtain ⟨_, derived', follows'⟩ :=
        ihSecond later place.gap (settled_skipGap _) (settled_skipGap _) rfl
      exact ⟨_, .seq derived derived', (follows'.mono within).followedBy tokens nodes⟩
  | seqRefused _ ih =>
    cases spaced
    obtain ⟨here, before, -⟩ := Pattern.flow_seq.mp flows
    obtain ⟨_, derived, ⟨⟩⟩ := ih before at' ready ready' rfl
    exact ⟨_, .seqRefused derived, .refused⟩
  | first _ ih =>
    cases spaced
    obtain ⟨here, there, before, -, rfl⟩ := Pattern.flow_alt.mp flows
    obtain ⟨_, derived, follows⟩ := ih before at' ready ready' rfl
    cases follows with
    | read member place tokens nodes =>
      exact ⟨_, .first derived, .read (List.mem_eraseDups.mpr (List.mem_append_left _ member)) place
        tokens nodes⟩
  | second _ _ ihFirst ihSecond =>
    cases spaced
    obtain ⟨here, there, before, after, rfl⟩ := Pattern.flow_alt.mp flows
    obtain ⟨_, derived, ⟨⟩⟩ := ihFirst before at' ready ready' rfl
    obtain ⟨_, derived', follows⟩ := ihSecond after at' ready ready' rfl
    exact ⟨_, .second derived derived', follows.mono fun _ member =>
      List.mem_eraseDups.mpr (List.mem_append_right _ member)⟩
  | many _ _ ihFirst ihMore =>
    cases spaced
    obtain ⟨here, again, before, later, closed, rfl⟩ := Pattern.flow_many.mp flows
    obtain ⟨_, derived, follows⟩ := ihFirst before at' ready ready' rfl
    cases follows with
    | read member place tokens nodes =>
      have further : ∀ q' ∈ here, ∃ there, Pattern.flow _ q' = some there ∧ there ⊆ here := fun q' inside =>
        (gather_eq_some later q' inside).imp fun _ => And.imp_right fun within =>
          List.Subset.trans within closed
      obtain ⟨_, derived', follows'⟩ := ihMore ⟨member, further⟩ place trivial trivial rfl
      exact ⟨_, .many derived derived',
        (follows'.mono (List.subset_cons_self ..)).followedBy tokens nodes⟩
  | manyNone _ ih =>
    cases spaced
    obtain ⟨here, again, before, -, -, rfl⟩ := Pattern.flow_many.mp flows
    obtain ⟨_, derived, ⟨⟩⟩ := ih before at' ready ready' rfl
    exact ⟨_, .manyNone derived, follows_nothing (List.mem_cons_self ..) at'⟩
  | again _ _ ihFirst ihMore =>
    cases spaced
    obtain ⟨listed, closed⟩ := flows
    obtain ⟨here, before, within⟩ := closed q listed
    obtain ⟨_, derived, follows⟩ := ihFirst before at'.gap (settled_skipGap _) (settled_skipGap _) rfl
    cases follows with
    | read member place tokens nodes =>
      obtain ⟨_, derived', follows'⟩ := ihMore ⟨within member, closed⟩ place trivial trivial rfl
      exact ⟨_, .again derived derived', follows'.followedBy tokens nodes⟩
  | done _ ih =>
    cases spaced
    obtain ⟨listed, closed⟩ := flows
    obtain ⟨here, before, -⟩ := closed q listed
    obtain ⟨_, derived, ⟨⟩⟩ := ih before at'.gap (settled_skipGap _) (settled_skipGap _) rfl
    exact ⟨_, .done derived, follows_nothing listed at'⟩
  | optional _ ih =>
    cases spaced
    obtain ⟨here, before, rfl⟩ := Pattern.flow_optional.mp flows
    obtain ⟨_, derived, follows⟩ := ih before at' ready ready' rfl
    cases follows with
    | read member place tokens nodes =>
      exact ⟨_, .optional derived, .read (List.mem_cons_of_mem _ member) place tokens nodes⟩
  | optionalNone _ ih =>
    cases spaced
    obtain ⟨here, before, rfl⟩ := Pattern.flow_optional.mp flows
    obtain ⟨_, derived, ⟨⟩⟩ := ih before at' ready ready' rfl
    exact ⟨_, .optionalNone derived, follows_nothing (List.mem_cons_self ..) at'⟩
  | absent refused _ =>
    cases spaced
    obtain ⟨o', derived, same, follows⟩ := follows_absent refused flows at' ready ready'
    cases o' with
    | none => exact ⟨_, .absent derived, follows rfl⟩
    | some r => cases same
  | absentRefused found _ =>
    cases spaced
    obtain ⟨o', derived, same, -⟩ := follows_absent found flows at' ready ready'
    cases o' with
    | none => cases same
    | some r => exact ⟨_, .absentRefused derived, .refused⟩

/-! ## Programs -/

theorem derives_nothing (spacing : Spacing) (c : Cursor) :
    Derives spacing (.one .nothing) c (some (.nothing c)) := by
  refine derives_text_iff.mpr ?_
  simp [Cursor.takeText, Reading.ofTerminal, Reading.nothing]

theorem rest_of_endOfInput {c : Cursor} {r : Reading}
    (derived : Derives .free (.one (.rule .endOfInput)) c (some r)) : c.rest = [] := by
  obtain ⟨_, inside, whole⟩ := derives_rule_iff.mp derived
  rw [derives_endOfText_iff.mp inside] at whole
  split at whole
  · next ended => exact List.isEmpty_iff.mp ended
  · cases whole

/-- A text whose lexemes are those of a program is one, with the same tree up to places. All tokens
of a program are lexemes, and they are all that it consists of. -/
theorem Reads.alike {text text' : List Char} {r : Reading}
    (reads : Reads .program text r) (alike : Alike .fresh (pastGap text) (pastGap text')) :
    (∃ r', Reads .program text' r' ∧ Node.AllAlike r.nodes r'.nodes) ∧
      (∀ t ∈ r.tokens, Ends text t.stop.rest) ∧ Passes .fresh (pastGap text) .fresh [] := by
  obtain ⟨_, inside, whole⟩ := derives_rule_iff.mp reads
  obtain ⟨inside, rfl, rfl⟩ := Option.map_eq_some_iff.mp whole.symm
  obtain ⟨_, ended, before, atEnd, rfl⟩ := derives_seq_some_iff.mp inside
  obtain ⟨_, statements, nothing, many, rfl⟩ := derives_seq_some_iff.mp before
  obtain rfl := Option.some.inj ((derives_nothing _ _).unique nothing)
  have place : At text (some .fresh) (Cursor.ofText text).skipGap (Cursor.ofText text').skipGap := by
    rw [At, Cursor.rest_skipGap, Cursor.rest_skipGap, Cursor.pastGap_pastGap, Cursor.pastGap_pastGap]
    exact ⟨.here, alike⟩
  have flows : (Pattern.many statement).flow (some .fresh) = some [some .fresh, some .fresh] := by
    decide +kernel
  obtain ⟨_, many', follows⟩ := many.alike flows place (settled_skipGap _) (settled_skipGap _)
  cases follows with
  | @read _ statements' q' member place tokens nodes =>
  obtain rfl : q' = some .fresh := by simpa using member
  have flows : (Pattern.rule .endOfInput).flow (some .fresh) = some [some .fresh] := rfl
  obtain ⟨_, atEnd', follows⟩ := atEnd.alike flows place.gap (settled_skipGap _) (settled_skipGap _)
  cases follows with
  | @read _ ended' _ member' place' tokens' nodes' =>
  have inside' : Derives (Rule.innerSpacing .program .free) (.one (Rule.pattern .program))
      (.ofText text') (some _) := .seq (.seq (derives_nothing _ _) many') atEnd'
  refine ⟨⟨_, .rule inside', .cons (.mk (absurd rfl) (nodes.append nodes')) .nil⟩, ?_, ?_⟩
  · intro t listed
    rcases List.mem_append.mp listed with early | late
    · exact (tokens nofun).2 t early
    · exact (tokens' (by rintro rfl; cases member' with | tail _ none => cases none)).2 t late
  · obtain ⟨passes, -⟩ := place
    have none : statements.rest.skipGap.rest = [] := rest_of_endOfInput atEnd
    rwa [← Cursor.rest_skipGap, none] at passes

end

end CheckedScript.Grammar
