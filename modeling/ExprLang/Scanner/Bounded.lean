import ExprLang.Scanner.Token
import ExprLang.Stack

/-! Scanning a token where the stack has little room left. The characters passed before the room ends stay passed: those
    of a gap make no difference, those of a token are lost with it. -/

namespace ExprLang.Scanner

/-- Where the room has ended. -/
inductive Shortage
  /-- In front of a token, or at the end of the text. -/
  | before
  /-- Behind the first character of a token. -/
  | inside
  deriving DecidableEq, Repr

/-- The room needed for the token that begins with the character `c`, which other characters may follow. -/
def Needs.token (needs : Needs) (c : Char) (behind : List Char) : Nat :=
  if c = '"' then if behind = [] then needs.symbol else needs.string
  else if c.isDigit ∨ Text.isLetter c then needs.word
  else needs.symbol

/-- Passes over blanks. -/
def skipBlanks (s : Scanner) : Scanner := s.pass (s.rest.takeWhile (· ∈ [' ', '\t', '\r', '\n'])).length

/-- What is left of a token for which there is not enough room: of a string its opening quote is passed, any other token
    is read to its end and then lost. -/
def loseToken (s : Scanner) : Scanner :=
  if s.rest.head? = some '"' then s.begin.pass 1 else s.tokenHere?.2

/-- The next token, unless the text ends before one begins, or the room ends. -/
def nextWithin (needs : Needs) (room : Nat) (s : Scanner) : Except Shortage (Option Token) × Scanner :=
  if room < needs.gap then (.error .before, s)
  else if room < needs.comment ∧ ['/', '/'] <+: s.skipBlanks.rest then (.error .before, s.skipBlanks)
  else
    match s.skipGap.rest with
    | [] => if room < needs.ending then (.error .before, s.skipGap) else (.ok none, s.skipGap)
    | c :: behind =>
      if room < needs.token c behind then (.error .inside, s.skipGap.loseToken)
      else s.skipGap.tokenHere?.map .ok id

/-- Where there is enough room, the token is the next. -/
theorem next_of_nextWithin {needs : Needs} {room : Nat} {s after : Scanner} {token : Option Token}
    (h : s.nextWithin needs room = (.ok token, after)) : s.next = (token, after) := by
  unfold nextWithin at h
  rw [next]
  split at h
  · cases h
  · split at h
    · cases h
    · split at h
      · next ended =>
        split at h
        · cases h
        · cases h
          rw [tokenHere?, ended]
      · split at h
        · cases h
        · cases eq : s.skipGap.tokenHere? with
          | mk first last =>
            rw [eq] at h
            cases h
            rfl

theorem length_rest_tokenHere?_le (s : Scanner) : s.tokenHere?.2.rest.length ≤ s.rest.length := by
  unfold tokenHere?
  split
  · exact Nat.le_refl _
  · refine Nat.le_trans (length_rest_tokenFrom_le _ _) ?_
    simp

theorem length_rest_loseToken_le (s : Scanner) : s.loseToken.rest.length ≤ s.rest.length := by
  unfold loseToken
  split
  · simp
  · exact length_rest_tokenHere?_le s

theorem length_rest_nextWithin_le (needs : Needs) (room : Nat) (s : Scanner) :
    (s.nextWithin needs room).2.rest.length ≤ s.rest.length := by
  have blanks : s.skipBlanks.rest.length ≤ s.rest.length := by simp [skipBlanks]
  have gap : s.skipGap.rest.length ≤ s.rest.length := by simp [skipGap]
  unfold nextWithin
  split
  · exact Nat.le_refl _
  · split
    · exact blanks
    · split
      · split <;> exact gap
      · split
        · exact Nat.le_trans (length_rest_loseToken_le _) gap
        · exact Nat.le_trans (length_rest_tokenHere?_le _) gap

end ExprLang.Scanner
