import ExprLang.Number.Shortest
import ExprLang.Token.Basic

/-! Expressions as trees. Operator nodes keep the very token they were read from, leaves keep a value. -/

namespace ExprLang

/-- The value of a leaf. -/
inductive Literal
  | null
  | bool (value : Bool)
  | number (value : Binary64)
  | text (value : String)
  /-- Stands where an expression should be and none could be read. -/
  | illegal
  deriving DecidableEq, Repr

/-- How a value is shown. -/
def Literal.show : Literal → String
  | .null => "null"
  | .bool true => "true"
  | .bool false => "false"
  | .number value => value.text
  | .text value => value
  | .illegal => "ILLEGAL"

inductive Expr
  | literal (value : Literal)
  | grouping (inner : Expr)
  | unary (operator : Token) (operand : Expr)
  | binary (left : Expr) (operator : Token) (right : Expr)
  /-- A node without form or content. The parser makes none. -/
  | bare
  deriving DecidableEq, Repr

namespace Expr

/-- The placeholder for an expression that could not be read. -/
def illegal : Expr := .literal .illegal

/-- What a node is, without its content. -/
inductive Form
  | literal | grouping | unary | binary | bare
  deriving DecidableEq, Repr

/-- Every form. -/
def Form.all : List Form := [literal, grouping, unary, binary, bare]

def form : Expr → Form
  | .literal _ => .literal
  | .grouping _ => .grouping
  | .unary _ _ => .unary
  | .binary _ _ _ => .binary
  | .bare => .bare

end Expr

end ExprLang
