import ExprLang.Scanner.Token

/-! What can be asked of a scanner, in any order and at any place. -/

namespace ExprLang.Scanner

inductive Operation
  | atEnd
  | peek
  | peekNext
  | advance
  | accept (expected : String)
  | advanceUntil (expected : String)
  | token (kind : Kind)
  | skipGap
  | string
  | number
  | word
  | next
  | drain
  /-- A message for a line, or for the current one; line zero stands for the current one too. -/
  | report (message : String) (line : Option Int)
  deriving DecidableEq, Repr

/-- What is said of a character read past the end. -/
def pastTheEndMessage : String := "string index out of range"

inductive Reply
  | nothing
  | flag (value : Bool)
  | character (c : Option Char)
  | token (token : Option Token)
  | tokens (tokens : List Token)
  /-- A character was read where none is left. -/
  | pastTheEnd
  deriving DecidableEq, Repr

/-- The answer to an operation and the scanner after it. -/
def perform (s : Scanner) : Operation → Reply × Scanner
  | .atEnd => (.flag s.atEnd, s)
  | .peek => (.character s.peek?, s)
  | .peekNext => (.character s.peekNext?, s)
  | .advance =>
    match s.advance with
    | (some c, after) => (.character (some c), after)
    | (none, after) => (.pastTheEnd, after)
  | .accept expected => s.accept expected |>.map .flag id
  | .advanceUntil expected => s.advanceUntil expected |>.map .flag id
  | .token kind => (.token (some (s.token kind)), s)
  | .skipGap => (.nothing, s.skipGap)
  | .string => s.string |>.map (.token ∘ some) id
  | .number => s.number |>.map (.token ∘ some) id
  | .word => s.word |>.map (.token ∘ some) id
  | .next => s.next |>.map .token id
  | .drain => s.drain |>.map .tokens id
  | .report message line =>
    let line := match line with
      | none => s.line
      | some line => if line = 0 then s.line else line
    (.nothing, s.report (.other message) line)

end ExprLang.Scanner
