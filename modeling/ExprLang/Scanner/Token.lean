import ExprLang.Scanner.Basic

/-! Scanning tokens. A gap of blanks and comments is passed over, then the next character decides what begins: a
    symbol, an operator, a string, a number or a word. Every token takes at least one character, hence a text ends
    after finitely many. -/

namespace ExprLang.Scanner

/-- How many characters the gap at the front of a text has: blanks, and comments from two slashes to the end of the
    line. `inComment` tells that the text begins inside a comment. -/
def gapLength (inComment : Bool) : List Char → Nat
  | [] => 0
  | c :: rest =>
    if inComment then gapLength (c ≠ '\n') rest + 1
    else if c = '/' ∧ rest.head? = some '/' then gapLength true rest + 1
    else if c ∈ [' ', '\t', '\r', '\n'] then gapLength false rest + 1
    else 0

/-- How many characters the number at the front of a text has: digits, and a point with digits behind it. -/
def numberLength (text : List Char) : Nat :=
  let whole := (text.takeWhile Char.isDigit).length
  match text.drop whole with
  | '.' :: rest =>
    let fraction := (rest.takeWhile Char.isDigit).length
    if fraction = 0 then whole else whole + 1 + fraction
  | _ => whole

/-- Passes over blanks and comments. -/
def skipGap (s : Scanner) : Scanner := s.pass (gapLength false s.rest)

/-- The string whose opening quote has been read. Its lexeme is the text between the quotes and its line the one it
    begins on; without a closing quote, all that is left is one illegal token. -/
def string (s : Scanner) : Token × Scanner :=
  match s.advanceUntil "\"" with
  | (true, closing) =>
    let after := closing.pass 1
    (⟨.string, String.ofList after.taken.tail.dropLast, s.line⟩, after)
  | (false, after) =>
    (⟨.illegal, String.ofList after.taken, s.line⟩, after.report .unterminatedString s.line)

/-- The rest of a number. -/
def number (s : Scanner) : Token × Scanner :=
  let after := s.pass (numberLength s.rest)
  (after.token .number, after)

/-- The rest of a word, which is a keyword or an identifier. -/
def word (s : Scanner) : Token × Scanner :=
  let after := s.pass (s.rest.takeWhile Text.isLetter).length
  (after.token (.ofWord (String.ofList after.taken)), after)

/-- The token that begins with the character `c`, which has been read. -/
def tokenFrom (s : Scanner) (c : Char) : Token × Scanner :=
  match Kind.ofSymbol? c, Kind.ofOperator? c with
  | some kind, _ => (s.token kind, s)
  | none, some (alone, withEqual) =>
    match s.accept "=" with
    | (true, after) => (after.token withEqual, after)
    | (false, after) => (after.token alone, after)
  | none, none =>
    if c = '"' then s.string
    else if c.isDigit then s.number
    else if Text.isLetter c then s.word
    else (s.token .illegal, s.report (.unexpectedCharacter c) s.line)

/-- The token that begins with the next character, if there is one. -/
def tokenHere? (s : Scanner) : Option Token × Scanner :=
  match s.rest with
  | [] => (none, s)
  | c :: _ =>
    let (token, after) := (s.begin.pass 1).tokenFrom c
    (some token, after)

/-- The next token, unless the text ends before one begins. -/
def next (s : Scanner) : Option Token × Scanner := s.skipGap.tokenHere?

theorem length_rest_string_le (s : Scanner) : s.string.2.rest.length ≤ s.rest.length := by
  have h := length_rest_advanceUntil_le s "\""
  unfold string
  split
  · next closing eq =>
    simp only [eq] at h
    simp only [rest_pass, List.length_drop]
    omega
  · next after eq =>
    rw [eq] at h
    exact h

theorem length_rest_tokenFrom_le (s : Scanner) (c : Char) :
    (s.tokenFrom c).2.rest.length ≤ s.rest.length := by
  have h := length_rest_accept_le s "="
  unfold tokenFrom
  split
  · exact Nat.le_refl _
  · split
    · next eq => rw [eq] at h; exact h
    · next eq => rw [eq] at h; exact h
  · split
    · exact length_rest_string_le s
    · split
      · simp [number]
      · split
        · simp [word]
        · exact Nat.le_refl _

/-- A token takes at least one character. -/
theorem length_rest_next_lt {s after : Scanner} {token : Token} (h : s.next = (some token, after)) :
    after.rest.length < s.rest.length := by
  have gap : s.skipGap.rest.length ≤ s.rest.length := by simp [skipGap]
  unfold next tokenHere? at h
  split at h
  · simp at h
  · next c rest eq =>
    obtain ⟨_, rfl⟩ := Prod.mk.inj h
    refine Nat.lt_of_le_of_lt (length_rest_tokenFrom_le _ c) ?_
    simp only [rest_pass, rest_begin, eq, List.length_drop, List.length_cons] at gap ⊢
    omega

/-- Where no token is left, nothing is. -/
theorem rest_of_next_eq_none {s after : Scanner} (h : s.next = (none, after)) : after.rest = [] := by
  unfold next tokenHere? at h
  split at h
  · next eq =>
    obtain ⟨_, rfl⟩ := Prod.mk.inj h
    exact eq
  · simp at h

/-- A scanner with nothing left stays as it is. -/
theorem next_of_rest_nil {s : Scanner} (h : s.rest = []) : s.next = (none, s) := by
  have skipped : s.skipGap = s := by
    cases s
    simp_all [skipGap, pass]
  rw [next, skipped, tokenHere?]
  split
  · rfl
  · next eq => rw [h] at eq; cases eq

/-- All tokens from here on. -/
def drain (s : Scanner) : List Token × Scanner :=
  match h : s.next with
  | (none, after) => ([], after)
  | (some token, after) =>
    have := length_rest_next_lt h
    let (tokens, last) := after.drain
    (token :: tokens, last)
termination_by s.rest.length

theorem drain_of_next_none {s after : Scanner} (h : s.next = (none, after)) : s.drain = ([], after) := by
  rw [drain]
  split
  · next eq => rw [h] at eq; cases eq; rfl
  · next eq => rw [h] at eq; cases eq

theorem drain_of_next_some {s after : Scanner} {token : Token} (h : s.next = (some token, after)) :
    s.drain = (token :: after.drain.1, after.drain.2) := by
  rw [drain]
  split
  · next eq => rw [h] at eq; cases eq
  · next eq => rw [h] at eq; cases eq; rfl

/-- The tokens of a text and what is wrong with it. -/
def tokenize (text : String) : List Token × List Diagnostic :=
  let (tokens, last) := (ofText text).drain
  (tokens, last.diagnostics.toList)

end ExprLang.Scanner
