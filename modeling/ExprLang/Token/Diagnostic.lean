/-! Diagnostics of the scanner: what it met and on which line. -/

namespace ExprLang

/-- What was wrong with the text. -/
inductive Problem
  | unexpectedCharacter (c : Char)
  | unterminatedString
  | other (message : String)
  deriving DecidableEq, Repr

def Problem.message : Problem → String
  | .unexpectedCharacter c => "Unexpected character '" ++ c.toString ++ "'."
  | .unterminatedString => "Unterminated string."
  | .other message => message

/-- A problem and its line. -/
structure Diagnostic where
  line : Int
  problem : Problem
  deriving DecidableEq, Repr

def Diagnostic.text (d : Diagnostic) : String := s!"[line {d.line}] Error: {d.problem.message}"

end ExprLang
