import ExprLang.Scanner.Bounded
import ExprLang.Token.Basic

/-! What can go wrong while expressions are read: syntax errors, from which the parser recovers, and failures of
    requests that make no sense where they are made. -/

namespace ExprLang

/-- What is missing at a token. -/
inductive Complaint
  | expectExpression
  | expectClosingParen
  | expectSemicolon
  | nestedTooDeeply
  | other (message : String)
  deriving DecidableEq, Repr

def Complaint.message : Complaint → String
  | .expectExpression => "Expect expression."
  | .expectClosingParen => "Expect ')' after expression."
  | .expectSemicolon => "Expect ';' after expression."
  | .nestedTooDeeply => "Expression nested too deeply."
  | .other message => message

/-- A complaint and the token it was made at. -/
structure SyntaxError where
  token : Token
  complaint : Complaint
  deriving DecidableEq, Repr

def SyntaxError.text (e : SyntaxError) : String :=
  let place := if e.token.kind = .endOfInput then "at end" else "at '" ++ e.token.lexeme ++ "'"
  s!"[line {e.token.line}] Error {place}: {e.complaint.message}"

/-- Why the parser gives no answer. -/
inductive Parser.Failure
  | syntaxError (error : SyntaxError)
  /-- A token was demanded where none is left. -/
  | noTokenLeft
  | notANumber (fault : Token.NotANumber)
  /-- The room on the stack ended while a token was scanned. -/
  | stackOverflow (shortage : Scanner.Shortage)
  deriving DecidableEq, Repr

def Parser.Failure.message : Parser.Failure → String
  | .syntaxError error => error.text
  | .noTokenLeft => ""
  | .notANumber fault => fault.message
  | .stackOverflow _ => Stack.overflowMessage

end ExprLang
