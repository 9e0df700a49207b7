import ExprLang.Expr.Visitor

/-! Trees as text: the operator of a node in front of its operands, in parentheses. -/

namespace ExprLang.Expr

/-- A name and some texts, in parentheses. -/
def parenthesized (name : String) (texts : List (Except Visitor.Failure String)) :
    Except Visitor.Failure String := do
  return "(" ++ name ++ " " ++ " ".intercalate (← texts.mapM id) ++ ")"

/-- Makes the text of a node from those of its children. There is none for a bare node. -/
def printer : Visitor (Except Visitor.Failure) String where
  name := "printer"
  literal? := some fun value => .ok value.show
  grouping? := some fun inner => parenthesized "group" [inner]
  unary? := some fun operator operand => parenthesized operator.lexeme [operand]
  binary? := some fun left operator right => parenthesized operator.lexeme [left, right]

/-- The text of a tree. -/
def print (stack : Stack) (tree : Expr) : Except Visitor.Failure String := tree.accept stack printer

/-- The texts of some trees, a line each. -/
def printAll (stack : Stack) (trees : List Expr) : Except Visitor.Failure String := do
  return "\n".intercalate (← trees.mapM (print stack))

/-- A name and the texts of some trees, in parentheses. -/
def parenthesize (stack : Stack) (name : String) (trees : List Expr) : Except Visitor.Failure String :=
  parenthesized name (trees.map (print stack))

end ExprLang.Expr
