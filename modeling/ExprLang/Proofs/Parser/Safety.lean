import ExprLang.Proofs.Expr.Visits
import ExprLang.Proofs.Lexical.Places
import ExprLang.Proofs.Parser.Conservation

/-! # Only syntax errors

Work of a parser could fail for many reasons, and a tree could have no text. Numbers that the scanner returns can be
read, every token is looked at before it is used, and no rule makes a bare node. What is left are syntax errors; the end
of the room, which a rule that is asked for directly leaves to whoever asked, and which a tree may come to when it is
shown; and that `advance` demands a token where none may be left. Work that recovers does not fail at all. -/

namespace ExprLang

/-! ### Trees with a text -/

namespace Syntax

open ExprLang.Parser

theorem Derives.whole {level : Level} {tokens : List Token} {tree : Expr} (h : Derives level tokens tree) :
    tree.Whole := by
  induction h with
  | leaf => exact Expr.whole_literal _
  | grouping _ _ _ ih => exact ih.grouping
  | sign _ _ ih => exact ih.unary _
  | operand _ _ ih => exact ih
  | binary _ _ _ ih ih' => exact ih.binary _ ih'

end Syntax

namespace Parser

open Syntax

variable {stack : Stack} {lossy : Bool} {p q : Parser} {used : List Token} {trees : List Expr}

theorem Joined.whole {operand : Level} {kinds : List Kind} {tokens : List Token} {tree : Expr}
    (h : Joined operand kinds tokens tree) : tree.Whole := by
  induction h with
  | operand derives => exact derives.whole
  | binary _ _ second ih => exact ih.binary _ second.whole

/-- The trees have a text, unless there is no room to visit one of them to its end. -/
structure Printable (stack : Stack) (trees : List Expr) : Prop where
  cases : (∃ text, Expr.printAll stack trees = .ok text) ∨ Expr.printAll stack trees = .error .stackOverflow
  fits (h : ∀ tree ∈ trees, tree.Fits stack) : ∃ text, Expr.printAll stack trees = .ok text

theorem printable (stack : Stack) (whole : ∀ tree ∈ trees, tree.Whole) : Printable stack trees where
  cases := Expr.Whole.printAll whole
  fits h := by
    rcases Expr.printAll_cases h with ⟨-, text⟩ | ⟨⟨tree, member, broken⟩, -⟩
    · exact text
    · exact absurd (whole tree member) broken

theorem Printable.of_failure {failure : Visitor.Failure} (h : Printable stack trees)
    (failed : Expr.printAll stack trees = .error failure) :
    failure = .stackOverflow ∧ ∃ tree ∈ trees, ¬tree.Fits stack := by
  have none : ∀ text, Expr.printAll stack trees ≠ .ok text := by
    rintro text shown
    rw [failed] at shown
    cases shown
  constructor
  · rcases h.cases with ⟨text, shown⟩ | short
    · exact absurd shown (none text)
    · rw [failed] at short
      exact Except.error.inj short
  · refine Classical.byContradiction fun fits => ?_
    obtain ⟨text, shown⟩ := h.fits fun tree member => Classical.not_not.mp fun deep => fits ⟨tree, member, deep⟩
    exact none text shown

theorem printable_one (stack : Stack) {tree : Expr} (whole : tree.Whole) : Printable stack [tree] :=
  printable stack (List.forall_mem_singleton.mpr whole)

theorem whole_of_parse {tree : Expr} (run : parse stack p = .ok tree q) (readable : p.Readable) : tree.Whole := by
  obtain ⟨used, -, rfl | derives, -⟩ := parse_noted run readable (.inl rfl)
  · exact Expr.whole_literal _
  · exact derives.whole

theorem whole_of_parseAll (run : parseAll stack p = .ok trees q) (readable : p.Readable) :
    ∀ tree ∈ trees, tree.Whole := by
  obtain ⟨last, rounds, -⟩ := parseAll_eq_ok_iff.mp run
  intro tree member
  obtain ⟨used, derives⟩ := rounds.derives readable tree member
  exact derives.whole

/-! ### Requests -/

def Failure.Syntactic (failure : Failure) : Prop := ∃ error, failure = .syntaxError error

/-- Requests that may end in a syntax error, which they leave to whoever made them. -/
def Operation.Grammatical : Operation → Prop
  | .bounded | .level _ | .binary _ _ | .consume _ _ => True
  | _ => False

/-- The level of the operands, where a rule is asked for directly. -/
def Operation.operand? : Operation → Option Level
  | .level which => some which
  | .binary operand _ => some operand
  | _ => none

/-- The trees that a request reads in order to show them. -/
inductive Operation.Shows (stack : Stack) (p : Parser) : Operation → List Expr → Prop
  | print {q : Parser} {tree : Expr} (run : Parser.parse stack p = .ok tree q) : Operation.Shows stack p .print [tree]
  | printAll {q : Parser} {trees : List Expr} (run : Parser.parseAll stack p = .ok trees q) :
    Operation.Shows stack p .printAll trees

/-- A request for a rule comes to the end of the room, since the tokens ahead are an operand too deep. -/
structure Overflows (stack : Stack) (p : Parser) (operation : Operation) (failure : Failure) : Prop where
  overflow : ∃ shortage, failure = .stackOverflow shortage
  deep : ∃ level used, operation.operand? = some level ∧ EndsTooDeep stack level used ∧ used <+: p.unread

/-- A failure in reply to a request is a syntax error and the request one that may have it, or no token was left to
    advance over, or an operand was too deep for a rule that was asked for directly. Trees have a text unless they are
    too deep to be shown. -/
def Harmless (stack : Stack) (p : Parser) (operation : Operation) : Reply → Prop
  | .failed failure => operation = .advance ∧ failure = .noTokenLeft ∧ p.unread = [] ∨
      operation.Grammatical ∧ failure.Syntactic ∨ Overflows stack p operation failure
  | .unprintable failure => failure = .stackOverflow ∧
      ∃ trees, operation.Shows stack p trees ∧ ∃ tree ∈ trees, ¬tree.Fits stack
  | .tree tree => ∀ stack, Printable stack [tree]
  | .trees trees => ∀ stack, Printable stack trees
  | _ => True

theorem harmless_ofText {operation : Operation} (shows : operation.Shows stack p trees) (h : Printable stack trees) :
    Harmless stack p operation (.ofText (Expr.printAll stack trees)) := by
  cases shown : Expr.printAll stack trees with
  | ok text => trivial
  | error failure =>
    obtain ⟨short, deep⟩ := h.of_failure shown
    exact ⟨short, trees, shows, deep⟩

/-- A rule that is asked for directly makes whole trees, and fails for want of a part or of room. -/
theorem Attempt.harmless {level : Level} {good : List Token → Expr → Prop} {operation : Operation} {work : Work Expr}
    (h : Attempt stack level good p (work p)) (asked : operation.operand? = some level)
    (whole : ∀ used tree, good used tree → tree.Whole) (may : operation.Grammatical) :
    Harmless stack p operation (Reply.ofWork work .tree p).1 := by
  rw [Reply.ofWork]
  generalize work p = result at h
  cases h with
  | done moves made => exact fun stack => printable_one stack (whole _ _ made)
  | refused moves => exact .inr (.inl ⟨may, _, rfl⟩)
  | overflow moves deep ended =>
    have ahead : _ <+: p.unread := ⟨_, moves.unread_eq.symm⟩
    exact .inr (.inr ⟨⟨_, rfl⟩, level, _, asked, deep, ahead⟩)

theorem Tried.harmless {work : Work Expr} (h : Tried stack p (work p)) :
    Harmless stack p .bounded (Reply.ofWork work .tree p).1 := by
  rw [Reply.ofWork]
  generalize work p = result at h
  cases h with
  | read moves derives => exact fun stack => printable_one stack derives.whole
  | stuck | tooDeep | torn => exact .inr (.inl ⟨trivial, _, rfl⟩)

/-- A token is refused only where none is left, and nothing is noted in either case. -/
theorem advance_cases (p : Parser) :
    (p.unread = [] ∧ ∃ q, p.peek = (none, q) ∧ advance p = .error .noTokenLeft q) ∨
      p.unread ≠ [] ∧ ∃ token q, p.peek = (some token, q) ∧ advance p = .ok token { q with lookahead := none } := by
  cases ahead : p.unread with
  | nil =>
    obtain ⟨q, next, -⟩ := peek_of_nil ahead
    exact .inl ⟨rfl, q, next, by rw [advance, next]⟩
  | cons token tokens =>
    obtain ⟨q, next, -⟩ := peek_of_cons ahead
    exact .inr ⟨List.cons_ne_nil _ _, token, q, next, by rw [advance, next]⟩

/-- Whatever consumes a token could have demanded it. -/
theorem Step.advance_eq {token : Token} (h : Step lossy p [token] q) :
    ∃ r, advance p = .ok token r ∧ (q = r ∨ q = { r with current := token }) := by
  cases h with
  | use next => exact ⟨_, by rw [advance, next], .inr rfl⟩
  | pass next => exact ⟨_, by rw [advance, next], .inl rfl⟩

theorem harmless_perform (stack : Stack) (readable : p.Readable) (operation : Operation) :
    Harmless stack p operation (p.perform stack operation).1 := by
  cases operation with
  | parse =>
    obtain ⟨tree, q, run⟩ := exists_parse stack readable
    rw [perform, ofWork_of_ok run]
    exact fun stack => printable_one stack (whole_of_parse run readable)
  | parseAll =>
    obtain ⟨trees, q, run⟩ := exists_parseAll stack readable
    rw [perform, ofWork_of_ok run]
    exact fun stack => printable stack (whole_of_parseAll run readable)
  | print =>
    obtain ⟨tree, q, run⟩ := exists_parse stack readable
    rw [perform, ofWork_of_ok run]
    exact harmless_ofText (.print run) (printable_one stack (whole_of_parse run readable))
  | printAll =>
    obtain ⟨trees, q, run⟩ := exists_parseAll stack readable
    rw [perform, ofWork_of_ok run]
    exact harmless_ofText (.printAll run) (printable stack (whole_of_parseAll run readable))
  | bounded => exact (tried_expression stack readable).harmless
  | level level =>
    exact (attempt_rule stack level readable).harmless rfl (fun _ _ derives => derives.whole) trivial
  | binary operand kinds =>
    exact (attempt_binary stack operand kinds readable).harmless rfl (fun _ _ joined => joined.whole) trivial
  | consume kind message =>
    rcases consume_cases kind (.other message) p with ⟨token, q, -, -, eq⟩ | ⟨q, -, -, eq⟩
    · rw [perform, ofWork_of_ok eq]
      trivial
    · rw [perform, ofWork_of_error eq]
      exact .inr (.inl ⟨trivial, _, rfl⟩)
  | advance =>
    rcases advance_cases p with ⟨ended, q, -, eq⟩ | ⟨-, token, q, -, eq⟩
    · rw [perform, ofWork_of_error eq]
      exact .inl ⟨rfl, rfl, ended⟩
    · rw [perform, ofWork_of_ok eq]
      trivial
  | take | peek | peekOrEnd | atEnd | synchronize | record => trivial

/-! ### No character past the end -/

theorem walk_peek (p : Parser) : p.scanner.Walk p.peek.2.scanner := by
  unfold peek
  split
  · exact .refl _
  · exact Scanner.walk_next _

theorem walk_of_peek {token : Option Token} (h : p.peek = (token, q)) : p.scanner.Walk q.scanner := by
  have walk := walk_peek p
  rwa [h] at walk

theorem Step.walk (h : Step lossy p used q) : p.scanner.Walk q.scanner := by
  cases h with
  | look next | use next | pass next =>
    have walk := walk_of_peek next
    exact walk
  | record => exact .refl _
  | stop ended | lose _ ended => exact walk_of_pull_error ended

theorem Run.walk (h : Run lossy p used q) : p.scanner.Walk q.scanner := by
  induction h with
  | refl => exact .refl _
  | step first _ ih => exact first.walk.trans ih

/-! ### Any sequence of requests -/

/-- Whatever is asked of the parser next has a harmless reply. `advance` is refused exactly where no token is left, and
    changes neither the current token nor the errors. The parser has come here by single steps, and its scanner by
    single characters of the text. -/
structure Safe (text : String) (p : Parser) : Prop where
  harmless (stack : Stack) (operation : Operation) : Harmless stack p operation (p.perform stack operation).1
  refused (stack : Stack) : (p.perform stack .advance).1 = .failed .noTokenLeft ↔ p.unread = []
  kept (stack : Stack) : (p.perform stack .advance).2.current = p.current ∧
    (p.perform stack .advance).2.errors = p.errors
  run : ∃ consumed, Run true (ofText text) consumed p
  walk : (Scanner.ofText text).Walk p.scanner
  within : p.scanner.current ≤ text.toList.length

theorem advance_refused (stack : Stack) (p : Parser) :
    (p.perform stack .advance).1 = .failed .noTokenLeft ↔ p.unread = [] := by
  rcases advance_cases p with ⟨ended, q, -, eq⟩ | ⟨some, token, q, -, eq⟩
  · rw [perform, ofWork_of_error eq]
    exact iff_of_true rfl ended
  · rw [perform, ofWork_of_ok eq]
    exact iff_of_false Reply.noConfusion some

theorem advance_kept (stack : Stack) (p : Parser) :
    (p.perform stack .advance).2.current = p.current ∧ (p.perform stack .advance).2.errors = p.errors := by
  have current := current_peek p
  have errors := errors_peek p
  rcases advance_cases p with ⟨-, q, next, eq⟩ | ⟨-, token, q, next, eq⟩
  · rw [next] at current errors
    rw [perform, ofWork_of_error eq]
    exact ⟨current, errors⟩
  · rw [next] at current errors
    rw [perform, ofWork_of_ok eq]
    exact ⟨current, errors⟩

end Parser

end ExprLang
