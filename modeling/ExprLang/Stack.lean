/-! What the stack holds. Rules call rules for the parts of an expression and the scanner on top of them, and a visit of
    a tree calls the visits of its children. Each of these calls needs some room, and where the room ends the innermost
    call fails. How much room there is depends on where a reading or a visit begins. -/

namespace ExprLang

/-- The room the scanner needs on top of the call that asks it for a token. -/
structure Scanner.Needs where
  /-- To pass over blanks and to see what is behind them. -/
  gap : Nat
  /-- To pass over comments as well. -/
  comment : Nat
  /-- To say that no token is left. -/
  ending : Nat
  /-- To make a token of a symbol, an operator, or a character that begins no token. -/
  symbol : Nat
  /-- To read on behind an opening quote. -/
  string : Nat
  /-- To make a token of a number or a word. -/
  word : Nat
  gap_pos : 0 < gap
  deriving DecidableEq, Repr

namespace Scanner.Needs

/-- The most room that the scanner may need. -/
def most (needs : Needs) : Nat :=
  max needs.gap (max needs.comment (max needs.ending (max needs.symbol (max needs.string needs.word))))

theorem gap_le_most (needs : Needs) : needs.gap ≤ needs.most := Nat.le_max_left _ _

end Scanner.Needs

/-- What puts an operand inside another. -/
inductive Stack.Opener
  | sign | paren
  deriving DecidableEq, Repr

/-- The room there is where a reading or a visit begins, and what their calls take of it. -/
structure Stack where
  /-- The room on top of the call that reads the first operand of an expression. -/
  room : Nat
  needs : Scanner.Needs
  /-- What the operand behind a sign takes. -/
  sign : Nat
  /-- What the first operand between parentheses takes. -/
  paren : Nat
  /-- The room on top of the call that visits a tree. -/
  visits : Nat
  /-- What a node needs for itself. -/
  node : Nat
  /-- What the visit of a child takes. -/
  child : Nat
  sign_pos : 0 < sign
  paren_pos : 0 < paren
  node_pos : 0 < node
  child_pos : 0 < child
  /-- There is room for the first token. -/
  roomy : needs.most ≤ room
  deriving DecidableEq, Repr

namespace Stack

/-- What an operand takes that is inside another. -/
def cost (stack : Stack) : Opener → Nat
  | .sign => stack.sign
  | .paren => stack.paren

theorem cost_pos (stack : Stack) (opener : Opener) : 0 < stack.cost opener := by
  cases opener with
  | sign => exact stack.sign_pos
  | paren => exact stack.paren_pos

/-- The stack of the program's own readings and visits. -/
def standard : Stack where
  room := 983
  needs := { gap := 8, comment := 9, ending := 9, symbol := 8, string := 9, word := 9, gap_pos := by decide }
  sign := 1
  paren := 11
  visits := 992
  node := 4
  child := 5
  sign_pos := by decide
  paren_pos := by decide
  node_pos := by decide
  child_pos := by decide
  roomy := by decide

end Stack

/-- What is said where the room ends. -/
def Stack.overflowMessage : String := "maximum recursion depth exceeded"

end ExprLang
