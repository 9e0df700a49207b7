import ExprLang.Expr.Basic
import ExprLang.Stack

/-! Visiting a tree. A visitor has a handler for each form of node that it knows; the handler is given what the node
    holds, with the visits to its children in their place, and runs those it wants. -/

namespace ExprLang

/-- The name under which a visitor offers its handler for a form. -/
def Expr.Form.handlerName : Expr.Form → String
  | .literal => "visit_literal"
  | .grouping => "visit_grouping"
  | .unary => "visit_unary"
  | .binary => "visit_binary"
  | .bare => "visit_expr"

namespace Visitor

/-- Why a visit ends without a result. -/
inductive Failure
  /-- The visitor of that name has no handler for a form of node. -/
  | unhandled (form : Expr.Form) (visitor : String)
  /-- A handler needed the result of a child, and there was none. -/
  | noResult
  /-- There was no room for a node. -/
  | stackOverflow
  deriving DecidableEq, Repr

def Failure.message : Failure → String
  | .unhandled form visitor => form.handlerName ++ " not implemented on " ++ visitor
  | .noResult => "a visit gave no result"
  | .stackOverflow => Stack.overflowMessage

end Visitor

/-- One handler per form at most. -/
structure Visitor (m : Type → Type) (α : Type) where
  name : String
  literal? : Option (Literal → m α) := none
  grouping? : Option (m α → m α) := none
  unary? : Option (Token → m α → m α) := none
  binary? : Option (m α → Token → m α → m α) := none
  bare? : Option (m α) := none

variable {m : Type → Type} {α : Type} [MonadExceptOf Visitor.Failure m]

/-- Runs what a handler makes of a node, or fails where there is no handler for its form. -/
def Visitor.run (v : Visitor m α) (form : Expr.Form) : Option (m α) → m α
  | some visit => visit
  | none => throw (.unhandled form v.name)

/-- Visits a node for which there is room. -/
def Visitor.enter (stack : Stack) (room : Nat) (visit : m α) : m α :=
  if room < stack.node then throw .stackOverflow else visit

/-- Visits a tree in the room there is. -/
def Expr.acceptWithin (stack : Stack) (v : Visitor m α) (room : Nat) : Expr → m α
  | .literal value => Visitor.enter stack room (v.run .literal (v.literal?.map (· value)))
  | .grouping inner =>
    Visitor.enter stack room (v.run .grouping (v.grouping?.map (· (inner.acceptWithin stack v (room - stack.child)))))
  | .unary operator operand =>
    Visitor.enter stack room
      (v.run .unary (v.unary?.map (· operator (operand.acceptWithin stack v (room - stack.child)))))
  | .binary left operator right =>
    Visitor.enter stack room (v.run .binary (v.binary?.map
      (· (left.acceptWithin stack v (room - stack.child)) operator (right.acceptWithin stack v (room - stack.child)))))
  | .bare => Visitor.enter stack room (v.run .bare v.bare?)

/-- Visits a tree. -/
def Expr.accept (stack : Stack) (v : Visitor m α) (tree : Expr) : m α := tree.acceptWithin stack v stack.visits

end ExprLang
