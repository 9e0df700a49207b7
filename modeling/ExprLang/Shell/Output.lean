import ExprLang.Expr.Visitor
import ExprLang.Parser.Error
import ExprLang.Text.Quoted
import ExprLang.Text.Utf8

/-! What the shell writes, and how a step of it ends. -/

namespace ExprLang.Shell

/-- Where a piece of text goes. Prompts and results may share a stream or not. -/
inductive Channel
  | prompts | results | errors
  deriving DecidableEq, Repr

/-- A text written to a channel. -/
structure Piece where
  channel : Channel
  text : String
  deriving DecidableEq, Repr

/-- A line written to a channel. -/
def line (channel : Channel) (text : String) : Piece := ⟨channel, text ++ "\n"⟩

/-- All that was written to some channels, in order. -/
def written (channels : List Channel) (pieces : List Piece) : String :=
  String.join ((pieces.filter (·.channel ∈ channels)).map Piece.text)

/-- What breaks a step off. -/
inductive Fault
  | parser (failure : Parser.Failure)
  | unprintable (failure : Visitor.Failure)
  | undecodable (fault : Text.Utf8.Fault)
  | noSuchFile (path : String)
  | isDirectory (path : String)
  | notADirectory (path : String)
  deriving DecidableEq, Repr

def Fault.message : Fault → String
  | .parser failure => failure.message
  | .unprintable failure => failure.message
  | .undecodable fault => fault.message
  | .noSuchFile path => "[Errno 2] No such file or directory: " ++ Text.quoted path
  | .isDirectory path => "[Errno 21] Is a directory: " ++ Text.quoted path
  | .notADirectory path => "[Errno 20] Not a directory: " ++ Text.quoted path

inductive Ending
  | returned
  | exit (code : Nat)
  | fault (fault : Fault)
  deriving DecidableEq, Repr

end ExprLang.Shell
