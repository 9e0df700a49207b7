import ExprLang.Text.Letter
import ExprLang.Token.Basic
import ExprLang.Token.Diagnostic

/-! The scanner's place in a text, and the movements from one place to another. Only what is still to be read decides
    how it goes on; what has been read since the last start is kept for the lexeme. -/

namespace ExprLang

structure Scanner where
  /-- Where the token in hand begins. -/
  start : Nat := 0
  /-- How far the text has been read. A movement beyond the end is counted too. -/
  current : Nat := 0
  line : Int := 1
  /-- The characters from `start` to `current`. -/
  taken : List Char := []
  /-- The characters from `current` on. -/
  rest : List Char
  /-- What was reported so far. -/
  diagnostics : Array Diagnostic := #[]
  deriving DecidableEq, Repr

namespace Scanner

/-- A scanner at the beginning of a text. -/
def ofText (text : String) : Scanner := { rest := text.toList }

/-- Nothing is left to read. -/
def atEnd (s : Scanner) : Bool := s.rest.isEmpty

/-- The next character. -/
def peek? (s : Scanner) : Option Char := s.rest.head?

/-- The character after the next. -/
def peekNext? (s : Scanner) : Option Char := s.rest.tail.head?

/-- Reads at most `n` characters and counts the lines that end in them. -/
def pass (s : Scanner) (n : Nat) : Scanner :=
  let piece := s.rest.take n
  { s with
    current := s.current + piece.length
    line := s.line + piece.count '\n'
    taken := s.taken ++ piece
    rest := s.rest.drop n }

/-- Reads one character without counting lines. At the end there is none, and yet the place moves on. -/
def advance (s : Scanner) : Option Char × Scanner :=
  match s.rest with
  | [] => (none, { s with current := s.current + 1 })
  | c :: rest => (some c, { s with current := s.current + 1, taken := s.taken ++ [c], rest })

/-- Reads the next character, without counting lines, if it is all of `expected`. -/
def accept (s : Scanner) (expected : String) : Bool × Scanner :=
  match s.rest with
  | [] => (false, s)
  | c :: rest =>
    if expected = String.singleton c then
      (true, { s with current := s.current + 1, taken := s.taken ++ [c], rest })
    else (false, s)

/-- Reads up to the first character that is all of `expected`, or else to the end, and tells whether there is one. -/
def advanceUntil (s : Scanner) (expected : String) : Bool × Scanner :=
  let before := s.rest.takeWhile fun c => expected ≠ String.singleton c
  let s := s.pass before.length
  (!s.atEnd, s)

/-- The token in hand begins here. -/
def begin (s : Scanner) : Scanner := { s with start := s.current, taken := [] }

/-- The token in hand, read up to here. -/
def token (s : Scanner) (kind : Kind) : Token := ⟨kind, String.ofList s.taken, s.line⟩

def report (s : Scanner) (problem : Problem) (line : Int) : Scanner :=
  { s with diagnostics := s.diagnostics.push ⟨line, problem⟩ }

@[simp] theorem rest_pass (s : Scanner) (n : Nat) : (s.pass n).rest = s.rest.drop n := rfl

@[simp] theorem rest_begin (s : Scanner) : s.begin.rest = s.rest := rfl

@[simp] theorem rest_report (s : Scanner) (problem : Problem) (line : Int) :
    (s.report problem line).rest = s.rest := rfl

theorem length_rest_accept_le (s : Scanner) (expected : String) :
    (s.accept expected).2.rest.length ≤ s.rest.length := by
  unfold accept
  split
  · exact Nat.le_refl _
  · next h => split <;> simp [h]

theorem length_rest_advanceUntil_le (s : Scanner) (expected : String) :
    (s.advanceUntil expected).2.rest.length ≤ s.rest.length := by
  simp [advanceUntil]

end Scanner

end ExprLang
