import ExprLang.Expr.Visitor

/-! Counting the nodes of a tree by a visitor that may lack handlers, and writing down which handlers ran. -/

namespace ExprLang

/-- What a census knows how to do. A blocked form has something in place of its handler that cannot be run. A census
    that inherits passes over every other form that it does not count, except bare nodes, and gives no number. -/
structure Census where
  name : String
  counted : List Expr.Form
  blocked : List Expr.Form := []
  inherits : Bool := false

namespace Census

/-- Visits that keep a log of the handlers run, also when they fail. -/
abbrev Visit := EStateM Visitor.Failure (Array Expr.Form)

/-- Logs the form, then visits the children and adds up their numbers and one. -/
def count (form : Expr.Form) (children : List (Visit (Option Nat))) : Visit (Option Nat) := do
  modify (·.push form)
  let total ← children.foldlM (fun total child => do
    match ← child with
    | some n => return total + n
    | none => throw .noResult) 1
  return some total

/-- What a census does at a node of some form. -/
def handler? (census : Census) (form : Expr.Form) : Option (List (Visit (Option Nat)) → Visit (Option Nat)) :=
  if form ∈ census.blocked then none
  else if form ∈ census.counted then some (count form)
  else if census.inherits ∧ form ≠ .bare then some fun _ => pure none
  else none

def visitor (census : Census) : Visitor Visit (Option Nat) where
  name := census.name
  literal? := (census.handler? .literal).map fun handle _ => handle []
  grouping? := (census.handler? .grouping).map fun handle inner => handle [inner]
  unary? := (census.handler? .unary).map fun handle _ operand => handle [operand]
  binary? := (census.handler? .binary).map fun handle left _ right => handle [left, right]
  bare? := (census.handler? .bare).map fun handle => handle []

/-- The number of nodes, or why there is none, and the forms in the order their handlers ran. -/
def take (stack : Stack) (census : Census) (tree : Expr) : Except Visitor.Failure (Option Nat) × List Expr.Form :=
  match tree.accept stack census.visitor |>.run #[] with
  | .ok total log => (.ok total, log.toList)
  | .error failure log => (.error failure, log.toList)

end Census

end ExprLang
