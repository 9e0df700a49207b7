import ExprLang.Expr.Printer
import ExprLang.Parser.Recovery

/-! What can be asked of a parser, in any order and at any place. -/

namespace ExprLang.Parser

inductive Operation
  | parse
  | parseAll
  /-- An expression. The end of the room is a syntax error, which is neither recorded nor recovered from. -/
  | bounded
  /-- An expression of one level, whose syntax error is neither recorded nor recovered from. -/
  | level (level : Level)
  | binary (operand : Level) (kinds : List Kind)
  /-- The text of what `parse` reads. -/
  | print
  /-- The text of what `parseAll` reads. -/
  | printAll
  | take (kinds : List Kind)
  | consume (kind : Kind) (message : String)
  | peek
  | peekOrEnd
  | advance
  | atEnd
  | synchronize
  | record (token : Token) (message : String)
  deriving DecidableEq, Repr

inductive Reply
  | nothing
  | flag (value : Bool)
  | token (token : Option Token)
  | tree (tree : Expr)
  | trees (trees : List Expr)
  | text (text : String)
  | failed (failure : Failure)
  | unprintable (failure : Visitor.Failure)
  deriving DecidableEq, Repr

namespace Reply

def ofText : Except Visitor.Failure String → Reply
  | .ok shown => .text shown
  | .error failure => .unprintable failure

/-- Does some work and makes a reply of what comes out. -/
def ofWork {α : Type} (work : Work α) (reply : α → Reply) (p : Parser) : Reply × Parser :=
  match work p with
  | .ok a q => (reply a, q)
  | .error failure q => (.failed failure, q)

end Reply

/-- The answer to an operation and the parser after it. -/
def perform (stack : Stack) (p : Parser) : Operation → Reply × Parser
  | .parse => Reply.ofWork (parse stack) .tree p
  | .parseAll => Reply.ofWork (parseAll stack) .trees p
  | .bounded => Reply.ofWork (Parser.bounded (expression stack).run) .tree p
  | .level level => Reply.ofWork (level.rule stack).run .tree p
  | .binary operand kinds => Reply.ofWork (binary stack operand kinds) .tree p
  | .print => Reply.ofWork (parse stack) (fun tree => .ofText (Expr.printAll stack [tree])) p
  | .printAll => Reply.ofWork (parseAll stack) (fun trees => .ofText (Expr.printAll stack trees)) p
  | .take kinds => (p.take kinds).map .token id
  | .consume kind message => Reply.ofWork (consume kind (.other message)) (fun token => .token (some token)) p
  | .peek => p.peek.map .token id
  | .peekOrEnd => p.peekOrEnd.map (fun token => .token (some token)) id
  | .advance => Reply.ofWork advance (fun token => .token (some token)) p
  | .atEnd => p.atEnd.map .flag id
  | .synchronize => (.nothing, p.synchronize)
  | .record token message => (.nothing, p.record ⟨token, .other message⟩)

end ExprLang.Parser
