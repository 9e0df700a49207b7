import ExprLang.Scanner.Token

/-! # The lexical grammar

What a token looks like in a text, said without the scanner. A gap is made of blanks and comments; behind it a token
takes the longest piece of the text that has the form of numbers, or of words, or of an operator with its equals sign.
A string goes to the next quote, whatever stands before it. The relation `Lexes` says which token a text begins with
and which piece of the text it takes; `Reading` says what a whole text is made of. -/

namespace ExprLang.Lexical

/-- The characters that separate tokens and mean nothing. -/
def blanks : List Char := [' ', '\t', '\r', '\n']

/-- Blanks and comments, each comment with the end of its line. -/
inductive Gap : List Char → Prop
  | nil : Gap []
  | blank {c : Char} {gap : List Char} (h : c ∈ blanks) (rest : Gap gap) : Gap (c :: gap)
  | comment {body gap : List Char} (h : '\n' ∉ body) (rest : Gap gap) : Gap ('/' :: '/' :: body ++ '\n' :: gap)

/-- What may follow the last token: a gap, or one that ends in a comment on the last line. -/
inductive FinalGap : List Char → Prop
  | closed {gap : List Char} (h : Gap gap) : FinalGap gap
  | openComment {gap body : List Char} (h : Gap gap) (body_line : '\n' ∉ body) :
    FinalGap (gap ++ '/' :: '/' :: body)

/-- A blank or a comment stands in front. -/
def GapAhead (text : List Char) : Prop :=
  (∃ c ∈ blanks, text.head? = some c) ∨ ∃ rest, text = '/' :: '/' :: rest

/-- The characters that are tokens whatever follows. -/
def symbols : List (Char × Kind) :=
  [('(', .leftParen), (')', .rightParen), ('{', .leftBrace), ('}', .rightBrace), ('[', .leftBracket),
   (']', .rightBracket), (',', .comma), (';', .semicolon), (':', .colon), ('.', .dot), ('+', .plus), ('-', .minus),
   ('*', .asterisk), ('^', .caret)]

/-- The characters that take a following equals sign: the kind alone and the kind with it. -/
def operators : List (Char × Kind × Kind) :=
  [('=', .assign, .equal), ('!', .exclamation, .notEqual), ('<', .less, .lessEqual), ('>', .greater, .greaterEqual)]

def Digits (text : List Char) : Prop := text ≠ [] ∧ ∀ c ∈ text, c.isDigit = true

/-- Digits, or digits, a point and digits. -/
inductive Number : List Char → Prop
  | whole {digits : List Char} (h : Digits digits) : Number digits
  | fraction {digits places : List Char} (h : Digits digits) (h' : Digits places) : Number (digits ++ '.' :: places)

def Word (text : List Char) : Prop := text ≠ [] ∧ ∀ c ∈ text, Text.isLetter c = true

/-- In front of `after`, the piece has a form that nothing longer has. -/
structure Longest (form : List Char → Prop) (piece after : List Char) : Prop where
  fits : form piece
  longest : ∀ candidate, form candidate → candidate <+: piece ++ after → candidate.length ≤ piece.length

/-- A character with which no token but the illegal one begins. -/
structure Stray (c : Char) : Prop where
  blank : c ∉ blanks
  symbol : c ∉ symbols.map (·.1)
  operator : c ∉ operators.map (·.1)
  slash : c ≠ '/'
  quote : c ≠ '"'
  digit : c.isDigit = false
  letter : Text.isLetter c = false

/-- `Lexes kind lexeme piece after`: the text `piece ++ after` begins with a token, which takes `piece`. -/
inductive Lexes : Kind → List Char → List Char → List Char → Prop
  | symbol {c : Char} {kind : Kind} {after : List Char} (h : (c, kind) ∈ symbols) : Lexes kind [c] [c] after
  | withEqual {c : Char} {alone withEqual : Kind} {after : List Char} (h : (c, alone, withEqual) ∈ operators) :
    Lexes withEqual [c, '='] [c, '='] after
  | alone {c : Char} {alone withEqual : Kind} {after : List Char} (h : (c, alone, withEqual) ∈ operators)
    (stop : after.head? ≠ some '=') : Lexes alone [c] [c] after
  | slash {after : List Char} (stop : after.head? ≠ some '/') : Lexes .slash ['/'] ['/'] after
  | string {inner after : List Char} (h : '"' ∉ inner) : Lexes .string inner ('"' :: inner ++ ['"']) after
  | unterminated {inner : List Char} (h : '"' ∉ inner) : Lexes .illegal ('"' :: inner) ('"' :: inner) []
  | number {piece after : List Char} (h : Longest Number piece after) : Lexes .number piece piece after
  | keyword {piece after : List Char} {kind : Kind} (h : Longest Word piece after)
    (found : (String.ofList piece, kind) ∈ Kind.keywords) : Lexes kind piece piece after
  | identifier {piece after : List Char} (h : Longest Word piece after)
    (other : String.ofList piece ∉ Kind.keywords.map (·.1)) : Lexes .identifier piece piece after
  | stray {c : Char} {after : List Char} (h : Stray c) : Lexes .illegal [c] [c] after

/-- `Reading line text tokens`: a text that begins on the line is made of gaps and of these tokens. -/
inductive Reading : Int → List Char → List Token → Prop
  | done {line : Int} {gap : List Char} (h : FinalGap gap) : Reading line gap []
  | token {line : Int} {gap lexeme piece after : List Char} {kind : Kind} {tokens : List Token} (h : Gap gap)
    (lexes : Lexes kind lexeme piece after)
    (rest : Reading (line + gap.count '\n' + piece.count '\n') after tokens) :
    Reading line (gap ++ piece ++ after) (⟨kind, String.ofList lexeme, line + gap.count '\n'⟩ :: tokens)

/-- The text of a token: its lexeme, and around that of a string its quotes. -/
def source (token : Token) : List Char :=
  if token.kind = .string then '"' :: token.lexeme.toList ++ ['"'] else token.lexeme.toList

/-! ### Gaps -/

theorem Gap.append {gap more : List Char} (h : Gap gap) (h' : Gap more) : Gap (gap ++ more) := by
  induction h with
  | nil => exact h'
  | blank hc _ ih => exact .blank hc ih
  | @comment body gap line _ ih =>
    have : '/' :: '/' :: body ++ '\n' :: gap ++ more = '/' :: '/' :: body ++ '\n' :: (gap ++ more) := by simp
    rw [this]
    exact .comment line ih

theorem FinalGap.append {gap more : List Char} (h : Gap gap) (h' : FinalGap more) : FinalGap (gap ++ more) := by
  cases h' with
  | closed g => exact .closed (h.append g)
  | @openComment front body g line =>
    rw [← List.append_assoc]
    exact .openComment (h.append g) line

theorem comment_cases (text : List Char) :
    '\n' ∉ text ∨ ∃ body rest, text = body ++ '\n' :: rest ∧ '\n' ∉ body := by
  by_cases h : '\n' ∈ text
  · exact .inr (List.eq_append_cons_of_mem h)
  · exact .inl h

theorem gap_cases (text : List Char) :
    FinalGap text ∨ ∃ gap c rest, text = gap ++ c :: rest ∧ Gap gap ∧ ¬GapAhead (c :: rest) := by
  match text with
  | [] => exact .inl (.closed .nil)
  | c :: rest =>
    by_cases ahead : GapAhead (c :: rest)
    · rcases ahead with ⟨b, hb, head⟩ | ⟨more, eq⟩
      · obtain rfl : c = b := Option.some.inj head
        rcases gap_cases rest with final | ⟨gap, d, behind, rfl, hgap, stop⟩
        · exact .inl (.append (.blank hb .nil) final)
        · exact .inr ⟨c :: gap, d, behind, rfl, .blank hb hgap, stop⟩
      · obtain ⟨rfl, rfl⟩ := List.cons.inj eq
        rcases comment_cases more with line | ⟨body, below, rfl, line⟩
        · exact .inl (.openComment .nil line)
        · have comment : Gap ('/' :: '/' :: body ++ ['\n']) := .comment line .nil
          rcases gap_cases below with final | ⟨gap, d, behind, rfl, hgap, stop⟩
          · refine .inl ?_
            have := FinalGap.append comment final
            simpa using this
          · exact .inr ⟨'/' :: '/' :: body ++ '\n' :: gap, d, behind, by simp, .comment line hgap, stop⟩
    · exact .inr ⟨[], c, rest, rfl, .nil, ahead⟩
termination_by text.length

end ExprLang.Lexical
