import ExprLang.Proofs.Parser.Statements

/-! # The first expression of a text

Reading one expression from the front always gives a tree. Either nothing is left to read, or the front of the tokens
is an expression, or the rule for expressions is stuck or has no more room and its one error is recorded
(`parse_cases`). Which of these it is, and with which tree and error, follows from the grammar and the room alone
(`First`). An error that is not the depth stands at the earliest token at which it can be known: the tokens in front of
it begin a sentence, and no sentence goes on with it. -/

namespace ExprLang.Parser

open Syntax

variable {stack : Stack}

section

variable {p q start : Parser} {token : Token}

theorem parse_of_peek_none (next : p.peek = (none, q)) : parse stack p = .ok .illegal q := by
  have ended : p.atEnd = (true, q) := by rw [atEnd, next]; rfl
  exact bind_of_ok (modifyGet_eq ended)

/-- Where anything is left to read, an expression is read from it or recovered from. -/
theorem parse_of_peek (next : p.peek = (some token, start)) : parse stack p =
    (recovering (bounded (expression stack).run) >>= fun tree => pure (tree.getD .illegal)) start := by
  have atEnd : p.atEnd = (false, start) := by rw [Parser.atEnd, next]; rfl
  exact bind_of_ok (modifyGet_eq atEnd)

theorem parse_of_read {tree : Expr} (next : p.peek = (some token, start))
    (read : bounded (expression stack).run start = .ok tree q) : parse stack p = .ok tree q := by
  have ran : recovering (bounded (expression stack).run) start = .ok (some tree) q := by rw [recovering, read]
  exact (parse_of_peek next).trans (bind_of_ok ran)

theorem parse_of_failed {error : SyntaxError} (next : p.peek = (some token, start))
    (failed : bounded (expression stack).run start = .error (.syntaxError error) q) :
    parse stack p = .ok .illegal (q.record error).synchronize := by
  have ran : recovering (bounded (expression stack).run) start = .ok none (q.record error).synchronize := by
    rw [recovering, failed]
  exact (parse_of_peek next).trans (bind_of_ok ran)

end

/-- What reading the first expression comes to. -/
theorem parse_cases (stack : Stack) {p : Parser} (readable : p.Readable) :
    (∃ q, p.peek = (none, q) ∧ parse stack p = .ok .illegal q) ∨
      ∃ token start, p.peek = (some token, start) ∧
        ((∃ tree q, Tried stack start (.ok tree q) ∧ bounded (expression stack).run start = .ok tree q ∧
            parse stack p = .ok tree q) ∨
          ∃ error q, Tried stack start (.error (.syntaxError error) q) ∧
            bounded (expression stack).run start = .error (.syntaxError error) q ∧
            parse stack p = .ok .illegal (q.record error).synchronize) := by
  cases next : p.peek with
  | mk token start =>
    cases token with
    | none => exact .inl ⟨start, rfl, parse_of_peek_none next⟩
    | some token =>
      have tried := tried_expression stack ((Moves.look next).readable readable)
      refine .inr ⟨token, start, rfl, ?_⟩
      generalize run : bounded (expression stack).run start = result at tried
      cases tried with
      | read moves derives fits stops =>
        exact .inl ⟨_, _, .read moves derives fits stops, rfl, parse_of_read next run⟩
      | stuck moves stuck => exact .inr ⟨_, _, .stuck moves stuck, rfl, parse_of_failed next run⟩
      | tooDeep moves deep => exact .inr ⟨_, _, .tooDeep moves deep, rfl, parse_of_failed next run⟩
      | torn moves deep ended look tears =>
        exact .inr ⟨_, _, .torn moves deep ended look tears, rfl, parse_of_failed next run⟩

/-- An expression in front that there is room for is read as far as the grammar says. -/
theorem parse_of_derives {p : Parser} {used rest : List Token} {tree : Expr}
    (derives : Derives .equality used tree) (fits : tree.frames stack + stack.needs.most ≤ stack.room)
    (eq : p.unread = used ++ rest) (stops : Level.equality.Stops rest) : ∃ token start q,
      p.peek = (some token, start) ∧ (expression stack).run start = .ok tree q ∧ q.unread = rest ∧
        parse stack p = .ok tree q := by
  obtain ⟨token, tokens, rfl, -⟩ := derives.head
  obtain ⟨start, next, -⟩ := peek_of_cons eq
  have same := (Moves.look next).unread_same
  obtain ⟨q, run, behind⟩ := derives.read fits (same ▸ eq) stops
  have ran : (expression stack).run start = .ok tree q := run
  exact ⟨token, start, q, next, ran, behind, parse_of_read next (by rw [bounded, ran])⟩

theorem Moves.errors_nil {text : String} {q : Parser} {used : List Token} (h : Moves (ofText text) used q) :
    q.errors.toList = [] := by
  rw [h.errors_eq]
  rfl

/-! ### What the grammar says of it -/

/-- The tree that tokens begin with, or the placeholder, and the error where they begin with none. -/
inductive First (stack : Stack) (tokens : List Token) : Expr → List SyntaxError → Prop
  | empty (h : tokens = []) : First stack tokens .illegal []
  | tree {used rest : List Token} {tree : Expr} (splits : Splits .equality tokens used tree rest)
    (fits : tree.frames stack + stack.needs.gap ≤ stack.room) : First stack tokens tree []
  | failed {front behind : List Token} {offending : Token} {complaint : Complaint} (some : tokens ≠ [])
    (none : ∀ used tree rest, ¬Splits .equality tokens used tree rest)
    (eq : tokens ++ [endOf tokens] = front ++ offending :: behind)
    (fails : Fails front offending complaint) : First stack tokens .illegal [⟨offending, complaint⟩]
  | tooDeep {before behind : List Token} {opener offending : Token}
    (eq : tokens ++ [endOf tokens] = before ++ [opener] ++ offending :: behind)
    (deep : TooDeep stack .equality stack.room before opener) :
    First stack tokens .illegal [⟨offending, .nestedTooDeeply⟩]

/-- One tree and one list of errors at most is first in a text, if it does not begin too deep. -/
theorem First.unique {text : String} {tree tree' : Expr} {errors errors' : List SyntaxError}
    (h : First stack (Scanner.tokenize text).1 tree errors) (h' : First stack (Scanner.tokenize text).1 tree' errors')
    (shallow : Shallow errors) (shallow' : Shallow errors') : tree = tree' ∧ errors = errors' := by
  have filled : ∀ {used tree rest}, Splits .equality (Scanner.tokenize text).1 used tree rest →
      (Scanner.tokenize text).1 ≠ [] := fun splits =>
    splits.tokens_eq ▸ List.append_ne_nil_of_left_ne_nil splits.derives.ne_nil _
  cases h with
  | empty none =>
    cases h' with
    | empty => exact ⟨rfl, rfl⟩
    | tree splits => exact absurd none (filled splits)
    | failed some => exact absurd none some
    | tooDeep => exact absurd rfl (shallow' _ List.mem_cons_self)
  | tree splits =>
    cases h' with
    | empty none => exact absurd none (filled splits)
    | tree splits' =>
      rw [← unread_ofText] at splits splits'
      exact ⟨(splits.unique splits').2.1, rfl⟩
    | failed _ none => exact absurd splits (none _ _ _)
    | tooDeep => exact absurd rfl (shallow' _ List.mem_cons_self)
  | failed some none eq fails =>
    cases h' with
    | empty empty => exact absurd empty some
    | tree splits => exact absurd splits (none _ _ _)
    | failed _ _ eq' fails' =>
      obtain ⟨rfl, -, rfl⟩ := fails.unique fails' (eq.symm.trans eq')
      exact ⟨rfl, rfl⟩
    | tooDeep => exact absurd rfl (shallow' _ List.mem_cons_self)
  | tooDeep => exact absurd rfl (shallow _ List.mem_cons_self)

/-- Behind an expression in front its first token that does not go on with it makes it fail. -/
theorem fails_of_splits {tokens used rest : List Token} {tree : Expr} (h : Splits .equality tokens used tree rest) :
    (∃ behind, tokens ++ [endOf tokens] = used ++ rest.headD (endOf tokens) :: behind) ∧
      Fails used (rest.headD (endOf tokens)) .expectSemicolon := by
  cases rest with
  | nil =>
    have ending : Kind.endOfInput ∉ Level.equality.absorbed := by decide
    exact ⟨⟨[], congrArg (· ++ [endOf tokens]) (h.tokens_eq.trans (List.append_nil used))⟩, h.derives.fails ending⟩
  | cons token rest =>
    refine ⟨⟨rest ++ [endOf tokens], ?_⟩, h.derives.fails (Level.stops_cons.mp h.stops)⟩
    exact (congrArg (· ++ [endOf tokens]) h.tokens_eq).trans (List.append_assoc _ _ _)

/-- A text that is not too deep inside a token gives what is first in it. -/
theorem parse_first {text : String} (intact : ¬Tears (expression stack).run (ofText text).peek.2) :
    ∃ tree q, parse stack (ofText text) = .ok tree q ∧
      First stack (Scanner.tokenize text).1 tree q.errors.toList := by
  have whole := unread_ofText text
  have start : (ofText text).unread <:+ (Scanner.tokenize text).1 := whole ▸ List.suffix_refl _
  rcases parse_cases stack (readable_of_suffix start) with ⟨q, next, run⟩ |
      ⟨token, start', next, ⟨tree, q, tried, -, run⟩ | ⟨error, q, tried, -, run⟩⟩
  · refine ⟨_, q, run, ?_⟩
    rw [(Moves.look next).errors_nil]
    exact .empty (whole ▸ unread_of_peek_none next)
  · have look := Moves.look next
    refine ⟨_, q, run, ?_⟩
    cases tried with
    | read moves derives fits stops =>
      rw [(look.trans moves).errors_nil]
      exact .tree ⟨whole ▸ (look.trans moves).unread_eq, derives, stops⟩ fits
  · have look := Moves.look next
    have filled := unread_ne_nil_of_peek next
    -- What is behind the tokens used, with the token that the error names in front.
    have stands : ∀ {used}, Moves (ofText text) used q → ∃ behind,
        (Scanner.tokenize text).1 ++ [endOf (Scanner.tokenize text).1] = used ++ q.upcoming :: behind := by
      intro used moves
      rw [moves.upcoming_eq filled start, ← whole, moves.unread_eq, List.append_assoc]
      cases q.unread with
      | nil => exact ⟨[], rfl⟩
      | cons token tokens => exact ⟨tokens ++ [_], rfl⟩
    refine ⟨_, _, run, ?_⟩
    cases tried with
    | @stuck _ used complaint moves stuck =>
      have through := look.trans moves
      obtain ⟨behind, eq⟩ := stands through
      have fails := (stuck_upcoming stuck).fails
      rw [errors_recovered through]
      refine .failed (whole ▸ filled) (fun used' tree rest splits => ?_) eq fails
      -- Behind an expression nothing else would be missed than a semicolon.
      obtain ⟨⟨behind', eq'⟩, fails'⟩ := fails_of_splits splits
      obtain ⟨-, -, rfl⟩ := fails.unique fails' (eq.symm.trans eq')
      rcases stuck.complaint_due with ⟨same, -⟩ | ⟨same, -⟩ <;> cases same
    | tooDeep moves deep =>
      have through := look.trans moves
      obtain ⟨behind, eq⟩ := stands through
      rw [errors_recovered through]
      exact .tooDeep eq deep
    | torn _ _ _ _ tears => exact absurd (by rw [next]; exact tears) intact

/-- Where the room ends inside a token, the error recorded names the depth. -/
theorem not_tears_of_shallow {p q : Parser} {tree : Expr} (run : parse stack p = .ok tree q) (filled : p.unread ≠ [])
    (shallow : Shallow q.errors.toList) : ¬Tears (expression stack).run p.peek.2 := by
  intro tears
  obtain ⟨token, tokens, eq⟩ := List.exists_cons_of_ne_nil filled
  obtain ⟨start, next, -⟩ := peek_of_cons eq
  rw [next] at tears
  obtain ⟨error, r, deep, failed⟩ := bounded_of_tears tears
  have ran := parse_of_failed next failed
  rw [run] at ran
  cases ran
  refine shallow error ?_ deep
  rw [errors_recovered (.refl r)]
  exact List.mem_append_right _ (List.mem_singleton_self error)

/-- The first expression of a text can be read or recovered from. -/
theorem exists_parse (stack : Stack) {p : Parser} (readable : p.Readable) : ∃ tree q, parse stack p = .ok tree q := by
  rcases parse_cases stack readable with ⟨q, -, run⟩ | ⟨-, -, -, ⟨tree, q, -, -, run⟩ | ⟨error, q, -, -, run⟩⟩
  · exact ⟨_, q, run⟩
  · exact ⟨tree, q, run⟩
  · exact ⟨_, _, run⟩

/-- A text for which the depth is not recorded gives what is first in it. -/
theorem first_of_parse {text : String} {tree : Expr} {q : Parser} (run : parse stack (ofText text) = .ok tree q)
    (shallow : Shallow q.errors.toList) : First stack (Scanner.tokenize text).1 tree q.errors.toList := by
  by_cases filled : (ofText text).unread = []
  · obtain ⟨r, next, -⟩ := peek_of_nil filled
    rw [parse_of_peek_none next] at run
    cases run
    rw [(Moves.look next).errors_nil]
    exact .empty filled
  · obtain ⟨tree', q', run', first⟩ := parse_first (not_tears_of_shallow run filled shallow)
    rw [run] at run'
    cases run'
    exact first

/-! ### Where the error stands -/

/-- The error stands behind the tokens in front of it at the first token that no sentence goes on with, or at the end of
    the text behind tokens that are no sentence yet. -/
structure Earliest (tokens front : List Token) (error : SyntaxError) : Prop where
  viable : ∃ more, Sentence (front.map (·.kind) ++ more)
  token : error.token.kind ≠ .endOfInput → (∃ behind, tokens = front ++ error.token :: behind) ∧
    ∀ more, ¬Sentence (front.map (·.kind) ++ error.token.kind :: more)
  ending : error.token.kind = .endOfInput → tokens = front ∧ ¬Sentence (front.map (·.kind))
  operand : error.complaint.message = "Expect expression." ↔ OperandDue front
  closing : error.complaint.message = "Expect ')' after expression." ↔ ¬OperandDue front

theorem messages_apart : Complaint.expectExpression.message ≠ Complaint.expectClosingParen.message := by decide

theorem Earliest.of_stuck {q : Parser} {tokens used : List Token} {complaint : Complaint}
    (stuck : Stuck .equality used q.ahead complaint) (eq : tokens = used ++ q.unread)
    (real : ∀ token ∈ tokens, token.kind ≠ .endOfInput) :
    Earliest tokens used ⟨q.upcoming, complaint⟩ where
  viable := by
    obtain ⟨missed, -, begins⟩ := stuck.begins_missed
    exact begins.of_append.sentence
  token other := by
    rcases q.ahead_cases with next | ⟨-, ended⟩
    · obtain ⟨token, head, kind⟩ := Option.map_eq_some_iff.mp next
      obtain ⟨behind, ahead⟩ := List.head?_eq_some_iff.mp head
      have first : q.upcoming = token := by rw [upcoming, ahead]; rfl
      exact ⟨⟨behind, by rw [eq, ahead, first]⟩, (next ▸ stuck).not_sentence_next⟩
    · exact absurd ended other
  ending ends := by
    refine ⟨?_, stuck.not_sentence⟩
    cases ahead : q.unread with
    | nil => rw [eq, ahead, List.append_nil]
    | cons token behind =>
      have first : q.upcoming = token := by rw [upcoming, ahead]; rfl
      have member : token ∈ tokens := by rw [eq, ahead]; exact List.mem_append_right _ List.mem_cons_self
      exact absurd (first ▸ ends) (real token member)
  operand := by
    rcases stuck.complaint_due with ⟨rfl, due⟩ | ⟨rfl, due⟩
    · exact iff_of_true rfl due
    · exact iff_of_false messages_apart.symm due
  closing := by
    rcases stuck.complaint_due with ⟨rfl, due⟩ | ⟨rfl, due⟩
    · exact iff_of_false messages_apart (not_not_intro due)
    · exact iff_of_true rfl due

/-- The first expression of a text gives a tree in any case. If an error is recorded that is not the depth, it is the
    only one, and it stands as early as possible behind the tokens used up to it. -/
theorem parse_viable_prefix (stack : Stack) (text : String) : ∃ tree last, parse stack (ofText text) = .ok tree last ∧
    ∀ error ∈ last.errors.toList, error.complaint ≠ .nestedTooDeeply → last.errors.toList = [error] ∧
      ∃ front q, Moves (ofText text) front q ∧ last = (q.record error).synchronize ∧
        Earliest (Scanner.tokenize text).1 front error := by
  have whole := unread_ofText text
  have readable : (ofText text).Readable := readable_of_suffix (List.suffix_refl _)
  rcases parse_cases stack readable with ⟨q, next, run⟩ |
      ⟨token, start, next, ⟨tree, q, tried, -, run⟩ | ⟨error, q, tried, -, run⟩⟩
  · refine ⟨_, q, run, fun error member => ?_⟩
    rw [(Moves.look next).errors_nil] at member
    cases member
  · have same : q.errors = start.errors := tried.errors_eq
    refine ⟨_, q, run, fun error member => ?_⟩
    rw [same, (Moves.look next).errors_nil] at member
    cases member
  · have look := Moves.look next
    have same : q.errors = start.errors := tried.errors_eq
    have recorded : (q.record error).synchronize.errors.toList = [error] := by
      rw [errors_recovered (.refl q), same, look.errors_nil]
      rfl
    refine ⟨_, _, run, fun error' member shallow => ?_⟩
    rw [recorded] at member ⊢
    obtain rfl := List.mem_singleton.mp member
    cases tried with
    | @stuck _ used _ moves stuck =>
      have through := look.trans moves
      refine ⟨rfl, used, q, through, rfl, .of_stuck stuck ?_ ?_⟩
      · rw [← whole]
        exact through.unread_eq
      · exact (Scanner.reading_tokenize text).ne_endOfInput
    | tooDeep => exact absurd rfl shallow
    | torn => exact absurd rfl shallow

theorem parse_viable_prefix_asterisk : ∃ front,
    Earliest (Scanner.tokenize "1 + * 2").1 front ⟨⟨.asterisk, "*", 1⟩, .expectExpression⟩ := by
  obtain ⟨tree, last, run, all⟩ := parse_viable_prefix .standard "1 + * 2"
  have seen : outcome (parse .standard) "1 + * 2" = some (.illegal, [⟨⟨.asterisk, "*", 1⟩, .expectExpression⟩]) := by
    decide +kernel
  rw [outcome, run] at seen
  obtain ⟨-, errors⟩ := Prod.mk.inj (Option.some.inj seen)
  obtain ⟨-, front, q, -, -, earliest⟩ := all _ (errors ▸ List.mem_singleton_self _) (by decide)
  exact ⟨front, earliest⟩

end ExprLang.Parser
