import ExprLang.Proofs.Parser.Verdict

/-! # Progress

No round is in vain: it consumes a token, and at most one tree or one error comes of it (`Progress`). An expression may
well be refused at a token that nobody used, but recovering drops at least that token. Hence rounds end, with no token
left, and no more trees and errors come of them than tokens are consumed. These are the tokens that were left, if the
room never ends inside one of them. -/

namespace ExprLang

open ExprLang.Parser Lexical Syntax

/-- The placeholder is nowhere in the tree. -/
def Expr.Genuine : Expr → Prop
  | .literal value => value ≠ .illegal
  | .grouping inner => inner.Genuine
  | .unary _ operand => operand.Genuine
  | .binary left _ right => left.Genuine ∧ right.Genuine
  | .bare => True

theorem Expr.Genuine.ne_illegal {tree : Expr} (h : tree.Genuine) : tree ≠ .illegal := by
  rintro rfl
  exact h rfl

theorem Syntax.Payload.ne_illegal {token : Token} {value : Literal} (h : Payload token value) : value ≠ .illegal := by
  cases h <;> exact Literal.noConfusion

/-- No expression of the grammar has a placeholder in it. -/
theorem Syntax.Derives.genuine {level : Level} {tokens : List Token} {tree : Expr} (h : Derives level tokens tree) :
    tree.Genuine := by
  induction h with
  | leaf payload => exact payload.ne_illegal
  | grouping _ _ _ ih => exact ih
  | sign _ _ ih => exact ih
  | operand _ _ ih => exact ih
  | binary _ _ _ ih ih' => exact ⟨ih, ih'⟩

namespace Parser

variable {stack : Stack} {lossy : Bool} {p q r : Parser}

/-! ### Progress -/

/-- One step in reading a text, with the tree and the errors that come of it. -/
structure Progress (lossy : Bool) (p : Parser) (tree : Option Expr) (errors : List SyntaxError) (q : Parser) :
    Prop where
  /-- A token is consumed, be it one that was refused. -/
  consumes : ∃ used, used ≠ [] ∧ Run lossy p used q
  errors_eq : q.errors.toList = p.errors.toList ++ errors
  one : tree.toList.length + errors.length ≤ 1
  genuine : ∀ found ∈ tree.toList, found.Genuine

theorem Round.progress {tree : Option Expr} (h : Round stack p tree q) (readable : p.Readable)
    (may : lossy = true ∨ Intact stack p) : ∃ errors, Progress lossy p tree errors q := by
  obtain ⟨used, filled, noted⟩ := h.noted readable may
  obtain ⟨errors, recorded, one⟩ := h.errors readable
  refine ⟨errors, ⟨used, filled, noted.run⟩, recorded, one, fun found member => ?_⟩
  obtain ⟨tokens, derives⟩ := h.derives readable found member
  exact derives.genuine

/-- As many tokens are consumed as trees and errors are added, or more. -/
theorem Rounds.consumes {trees : List Expr} (h : Rounds stack p trees q) :
    p.Readable → (lossy = true ∨ Intact stack p) →
      ∃ used errors, Run lossy p used q ∧ q.errors.toList = p.errors.toList ++ errors ∧
        trees.length + errors.length ≤ used.length := by
  induction h with
  | refl p => exact fun _ _ => ⟨[], [], .refl p, (List.append_nil _).symm, Nat.le_refl 0⟩
  | round first _ ih =>
    intro readable may
    obtain ⟨errors, progress⟩ := first.progress readable may
    obtain ⟨used, filled, run⟩ := progress.consumes
    obtain ⟨used', errors', run', recorded, bound⟩ :=
      ih (first.readable readable) (may.imp_right fun intact => intact.behind first)
    refine ⟨used ++ used', errors ++ errors', run.trans run', ?_, ?_⟩
    · rw [recorded, progress.errors_eq, List.append_assoc]
    · have one := progress.one
      have positive := List.length_pos_iff.mpr filled
      simp only [List.length_append]
      omega

/-! ### Calls -/

/-- The calls that read expressions: for the first one, and for all. -/
inductive Call
  | parse
  | parseAll
  deriving DecidableEq, Repr

def Call.operation : Call → Operation
  | .parse => .parse
  | .parseAll => .parseAll

/-- The parser of a text behind some calls. -/
def reached (text : String) (calls : List (Stack × Call)) : Parser :=
  performAll (calls.map (Prod.map id Call.operation)) (ofText text)

theorem readable_reached (text : String) (calls : List (Stack × Call)) : (reached text calls).Readable :=
  readable_performAll _ (.of_fresh rfl)

/-- No token is left and nothing changes but that the scanner has passed the gap behind the last one: not the tokens,
    not the errors, not what is reported, and the same call again has the same answer. -/
structure Idles (p q : Parser) : Prop where
  unread : q.unread = p.unread
  lookahead : q.lookahead = p.lookahead
  current : q.current = p.current
  errors : q.errors = p.errors
  diagnostics : q.scanner.diagnostics = p.scanner.diagnostics
  gap : FinalGap p.scanner.rest ∧ q.scanner = p.scanner.readOver p.scanner.rest []
  again (stack : Stack) (call : Call) : q.perform stack call.operation = p.perform stack call.operation

/-- What the call for the first expression does. -/
structure Parses (stack : Stack) (p : Parser) (tree : Expr) (q : Parser) : Prop where
  /-- Where a token is left one is consumed, whether or not an expression begins with it. -/
  consumes : p.unread ≠ [] → ∃ used, used ≠ [] ∧ Run true p used q
  placeholder : tree = .illegal ↔ p.unread = [] ∨ ∃ error, q.errors = p.errors.push error
  ended : p.unread = [] → Idles p q
  genuine : tree ≠ .illegal → tree.Genuine ∧ q.errors = p.errors

/-- What the call for all expressions does. -/
structure ParsesAll (stack : Stack) (p : Parser) (trees : List Expr) (q : Parser) : Prop where
  loop : ∃ last, Rounds stack p trees last ∧ last.peek = (none, q)
  round {before : List Expr} {mid r : Parser} {tree : Option Expr} (h : Rounds stack p before mid)
    (next : Round stack mid tree r) : ∃ errors, Progress true mid tree errors r
  ended : q.unread = []
  /-- The tokens consumed are those that were left, if the room does not end inside one of them. -/
  bound : ∃ used errors, Run true p used q ∧ q.errors.toList = p.errors.toList ++ errors ∧
    trees.length + errors.length ≤ used.length ∧ (Intact stack p → used = p.unread)
  genuine : ∀ tree ∈ trees, tree.Genuine

theorem parseAll_of_peek_none (next : p.peek = (none, q)) : parseAll stack p = .ok [] q :=
  parseAll_eq_ok_iff.mpr ⟨p, .refl p, next⟩

/-- A parser that has looked for a token in vain stays as it is. -/
theorem peek_of_peek_none (next : p.peek = (none, q)) : q.peek = (none, q) := by
  have none_left : q.scanner.rest = [] :=
    List.length_eq_zero_iff.mp (Nat.eq_zero_of_add_eq_zero (remaining_of_peek_eq_none next)).1
  have ahead : q.lookahead = none := lookahead_of_peek next
  have scanned : q.scanner.next = (none, q.scanner) := Scanner.next_of_rest_nil none_left
  cases q
  simp_all [peek]

/-- What the scanner has done when it was looked for a token in vain. -/
theorem scanner_of_peek_none (next : p.peek = (none, q)) :
    p.scanner.next = (none, q.scanner) := by
  have ended := unread_of_peek_none next
  have ahead : p.lookahead = none := Option.toList_eq_nil_iff.mp (List.append_eq_nil_iff.mp ended).1
  cases scanned : p.scanner.next with
  | mk token scanner =>
    rw [peek, ahead] at next
    simp only [scanned] at next
    cases next
    rfl

theorem idles_of_peek_none (next : p.peek = (none, q)) : Idles p q := by
  have look := Moves.look next
  have ended := unread_of_peek_none next
  have ahead : p.lookahead = none := Option.toList_eq_nil_iff.mp (List.append_eq_nil_iff.mp ended).1
  have still := peek_of_peek_none next
  have scanned := scanner_of_peek_none next
  refine ⟨look.unread_same.symm, (lookahead_of_peek next).trans ahead.symm, look.current_eq, look.errors_eq,
    Scanner.diagnostics_of_next_none scanned, Scanner.of_next_none scanned, fun stack call => ?_⟩
  cases call with
  | parse => simp only [Call.operation, perform, Reply.ofWork, parse_of_peek_none next, parse_of_peek_none still]
  | parseAll =>
    simp only [Call.operation, perform, Reply.ofWork, parseAll_of_peek_none next, parseAll_of_peek_none still]

theorem push_ne_self (errors : Array SyntaxError) (error : SyntaxError) : errors ≠ errors.push error := by
  intro same
  have sizes := congrArg Array.size same
  simp at sizes

theorem exists_parses (stack : Stack) (readable : p.Readable) :
    ∃ tree q, parse stack p = .ok tree q ∧ Parses stack p tree q := by
  have consumes : ∀ {tree q}, parse stack p = .ok tree q → p.unread ≠ [] → ∃ used, used ≠ [] ∧ Run true p used q := by
    intro tree q run filled
    obtain ⟨used, noted, -, some⟩ := parse_noted run readable (.inl rfl)
    exact ⟨used, some filled, noted.run⟩
  rcases parse_cases stack readable with ⟨q, next, run⟩ |
      ⟨token, start, next, ⟨tree, q, tried, -, run⟩ | ⟨error, q, tried, -, run⟩⟩
  · have ended := unread_of_peek_none next
    exact ⟨_, q, run, consumes run, iff_of_true rfl (.inl ended), fun _ => idles_of_peek_none next,
      fun other => absurd rfl other⟩
  · have filled := unread_ne_nil_of_peek next
    have same : q.errors = p.errors := tried.errors_eq.trans (Moves.look next).errors_eq
    have genuine : tree.Genuine := by
      cases tried with
      | read _ derives => exact derives.genuine
    refine ⟨tree, q, run, consumes run, iff_of_false genuine.ne_illegal ?_, fun none => absurd none filled,
      fun _ => ⟨genuine, same⟩⟩
    rintro (none | ⟨error, recorded⟩)
    · exact filled none
    · exact push_ne_self _ _ (same.symm.trans recorded)
  · have filled := unread_ne_nil_of_peek next
    have same : q.errors = p.errors := tried.errors_eq.trans (Moves.look next).errors_eq
    have recorded : (q.record error).synchronize.errors = p.errors.push error := by
      rw [← Array.toList_inj, errors_recovered (.refl q), same, Array.toList_push]
    exact ⟨_, _, run, consumes run, iff_of_true rfl (.inr ⟨error, recorded⟩), fun none => absurd none filled,
      fun other => absurd rfl other⟩

theorem parsesAll (readable : p.Readable) {trees : List Expr} (h : parseAll stack p = .ok trees q) :
    ParsesAll stack p trees q := by
  obtain ⟨last, rounds, ended⟩ := parseAll_eq_ok_iff.mp h
  have look := Moves.look ended
  have none : q.unread = [] := look.unread_same ▸ unread_of_peek_none ended
  have consumes : ∀ {lossy}, (lossy = true ∨ Intact stack p) → ∃ used errors, Run lossy p used q ∧
      q.errors.toList = p.errors.toList ++ errors ∧ trees.length + errors.length ≤ used.length := by
    intro lossy may
    obtain ⟨used, errors, run, recorded, bound⟩ := rounds.consumes readable may
    have through := run.trans (.of_moves look)
    rw [List.append_nil] at through
    exact ⟨used, errors, through, look.errors_eq ▸ recorded, bound⟩
  refine ⟨⟨last, rounds, ended⟩, fun front next => next.progress (front.readable readable) (.inl rfl), none, ?_,
    fun tree member => ?_⟩
  · by_cases intact : Intact stack p
    · obtain ⟨used, errors, run, recorded, bound⟩ := consumes (.inr intact)
      refine ⟨used, errors, run.mono, recorded, bound, fun _ => ?_⟩
      rw [run.unread_eq, none, List.append_nil]
    · obtain ⟨used, errors, run, recorded, bound⟩ := consumes (.inl rfl)
      exact ⟨used, errors, run, recorded, bound, fun whole => absurd whole intact⟩
  · obtain ⟨used, derives⟩ := rounds.derives readable tree member
    exact derives.genuine

/-- Reading a text comes to an end. Behind any calls, the call for the first expression consumes a token if there is one,
    and returns the placeholder exactly if there is none or if it records an error; the call for all expressions goes on
    in rounds, each of which consumes a token and adds a tree or an error or neither, until no token is left. -/
theorem reached_progress (stack : Stack) (text : String) (calls : List (Stack × Call)) :
    (∃ tree q, parse stack (reached text calls) = .ok tree q ∧ Parses stack (reached text calls) tree q) ∧
      ∃ trees q, parseAll stack (reached text calls) = .ok trees q ∧
        ParsesAll stack (reached text calls) trees q := by
  have readable := readable_reached text calls
  obtain ⟨trees, q, run⟩ := exists_parseAll stack readable
  exact ⟨exists_parses stack readable, trees, q, run, parsesAll readable run⟩

end Parser

end ExprLang
