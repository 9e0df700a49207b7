import ExprLang.Number.Binary64
import ExprLang.Token.Kind

/-! Tokens: a kind, the text it was made from and the line it begins on. -/

namespace ExprLang

structure Token where
  kind : Kind
  lexeme : String
  /-- Lines of a text count from one; a token that is built by hand may name any line. -/
  line : Int
  deriving DecidableEq, Repr

namespace Token

/-- A token as lists of tokens show it. -/
def text (token : Token) : String := token.kind.name ++ " " ++ token.lexeme

/-- A token was asked for its number and has none. -/
structure NotANumber where
  token : Token
  deriving DecidableEq, Repr

def NotANumber.message (fault : NotANumber) : String := fault.token.text ++ " is not a number"

/-- The number of a token of that kind, rounded to a double. -/
def number (token : Token) : Except NotANumber Binary64 :=
  if token.kind = .number then
    match Decimal.ofText? token.lexeme.toList with
    | some d => .ok (.ofDecimal d)
    | none => .error ⟨token⟩
  else .error ⟨token⟩

end Token

end ExprLang
