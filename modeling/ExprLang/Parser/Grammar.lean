import ExprLang.Expr.Basic
import ExprLang.Parser.Basic

/-! The grammar. From the loosest to the tightest level:

    equality       comparison (("!=" | "==") comparison)*
    comparison     sum ((">" | "<" | ">=" | "<=") sum)*
    sum            product (("+" | "-") product)*
    product        unary (("*" | "/") unary)*
    unary          ("-" | "!") unary | primary
    primary        "false" | "true" | "null" | number | string | "(" equality ")"

    An expression is an equality. Binary operators group to the left. Unary operators and parentheses may be nested as
    long as there is room on the stack. -/

namespace ExprLang.Parser

/-- A rule of the grammar: it reads an expression and uses a token at least. -/
structure Rule where
  run : Work Expr
  uses : Uses 1 run

namespace Rule

/-- Operators of some kinds, each with an operand on its right, as long as there are any. What was read so far is the
    left operand of the next. -/
def continued (operand : Rule) (kinds : List Kind) (left : Expr) : Work Expr := fun p =>
  match taken : p.take kinds with
  | (none, q) => .ok left q
  | (some operator, q) =>
    match read : operand.run q with
    | .error failure r => .error failure r
    | .ok right r =>
      have := remaining_take_lt taken
      have := operand.uses.1 _ _ _ read
      operand.continued kinds (.binary left operator right) r
termination_by p => p.remaining
decreasing_by omega

theorem uses_continued (operand : Rule) (kinds : List Kind) (left : Expr) :
    Uses 0 (operand.continued kinds left) := by
  constructor
  · intro p
    fun_induction operand.continued kinds left p with
    | case1 left p q taken =>
      intro a r eq
      cases eq
      exact remaining_take_le taken
    | case2 => intro a r eq; cases eq
    | case3 left p operator q taken right r read lt le ih =>
      intro a last eq
      have := ih a last eq
      omega
  · intro p
    fun_induction operand.continued kinds left p with
    | case1 => intro failure r eq; cases eq
    | case2 left p operator q taken failure r read =>
      intro failure' r' eq
      cases eq
      have := remaining_take_le taken
      have := operand.uses.2 _ _ _ read
      omega
    | case3 left p operator q taken right r read lt le ih =>
      intro failure last eq
      have := ih failure last eq
      omega

/-- An operand, and operators of some kinds with further operands. -/
def chain (operand : Rule) (kinds : List Kind) : Rule where
  run := operand.run >>= operand.continued kinds
  uses := operand.uses.bind (operand.uses_continued kinds)

/-- The rules of binary operators over a rule for their tightest operands. -/
def product (unary : Rule) : Rule := unary.chain [.asterisk, .slash]

@[inherit_doc product]
def sum (unary : Rule) : Rule := unary.product.chain [.plus, .minus]

@[inherit_doc product]
def comparison (unary : Rule) : Rule := unary.sum.chain [.greater, .less, .greaterEqual, .lessEqual]

@[inherit_doc product]
def equality (unary : Rule) : Rule := unary.comparison.chain [.notEqual, .equal]

/-- The value of a token that is an expression by itself. -/
def leaf? (token : Token) : Option (Except Token.NotANumber Literal) :=
  match token.kind with
  | .falseWord => some (.ok (.bool false))
  | .trueWord => some (.ok (.bool true))
  | .nullWord => some (.ok .null)
  | .number => some (token.number.map .number)
  | .string => some (.ok (.text token.lexeme))
  | _ => none

/-- The node of a leaf. -/
def literal : Except Token.NotANumber Literal → Work Expr
  | .ok value => pure (.literal value)
  | .error fault => throw (.notANumber fault)

/-- A value, or an expression in parentheses over a rule for its tightest operands. -/
def primary (unary : Rule) : Rule where
  run := do
    match ← modifyGet (takeMap leaf?) with
    | some value => literal value
    | none =>
      match ← modifyGet (take [.leftParen]) with
      | some _ =>
        let inner ← unary.equality.run
        let _ ← consume .rightParen .expectClosingParen
        return .grouping inner
      | none => fail .expectExpression
  uses := by
    refine Uses.takeMap (fun value => ?_) (Uses.take (fun _ => ?_) (Uses.fail .expectExpression))
    · cases value with
      | ok value => exact Uses.pure (Expr.literal value)
      | error fault => exact Uses.throw (.notANumber fault)
    · refine unary.equality.uses.zero.bind fun inner => ?_
      exact (Uses.consume .rightParen .expectClosingParen).zero.bind fun _ => Uses.pure (Expr.grouping inner)

/-- A sign in front of an operand, or an expression without a sign, read in the room there is. `operand` is the rule for
    what stands behind a sign, and for the tightest operands between parentheses. -/
def signed (needs : Scanner.Needs) (room : Nat) (operand : Stack.Opener → Rule) : Rule where
  run := do
    pull needs room
    match ← modifyGet (take [.minus, .exclamation]) with
    | some operator => return .unary operator (← (operand .sign).run)
    | none => (operand .paren).primary.run
  uses := by
    refine (Uses.pull needs room).before fun _ => Uses.take (fun operator => ?_) (operand .paren).primary.uses
    exact (operand .sign).uses.zero.bind fun inner => Uses.pure (Expr.unary operator inner)

/-- No expression: the room is used up. -/
def exhausted : Rule where
  run := throw (.stackOverflow .before)
  uses := Uses.throw (.stackOverflow .before)

/-- An operand with as many signs and parentheses around its innermost part as there is room for. -/
def unary (stack : Stack) (room : Nat) : Rule :=
  signed stack.needs room fun opener =>
    if 0 < room then
      have := stack.cost_pos opener
      unary stack (room - stack.cost opener)
    else exhausted
termination_by room

end Rule

/-- The levels of the grammar that have a rule of their own. -/
inductive Level
  | equality | comparison | sum | product | unary | primary
  deriving DecidableEq, Repr

/-- The rule of a level, with some room on top of the call that reads the first operand. -/
def Level.ruleWithin (stack : Stack) (room : Nat) : Level → Rule
  | .equality => (Rule.unary stack room).equality
  | .comparison => (Rule.unary stack room).comparison
  | .sum => (Rule.unary stack room).sum
  | .product => (Rule.unary stack room).product
  | .unary => Rule.unary stack room
  | .primary => (Rule.unary stack (room - stack.paren)).primary

/-- The rule of a level. -/
def Level.rule (stack : Stack) (level : Level) : Rule := level.ruleWithin stack stack.room

/-- The rule of an expression. -/
def expression (stack : Stack) : Rule := Level.rule stack .equality

/-- Binary operators of some kinds between operands of a level. -/
def binary (stack : Stack) (operand : Level) (kinds : List Kind) : Work Expr := ((operand.rule stack).chain kinds).run

end ExprLang.Parser
