/-! Kinds of tokens, and the texts that fix a kind: single characters, operators that an equals sign may follow, and
    keywords. -/

namespace ExprLang

/-- What a token is. -/
inductive Kind
  | illegal | endOfInput
  | identifier | number | string
  | assign | plus | minus | asterisk | slash | exclamation | caret
  | greater | less | greaterEqual | lessEqual | equal | notEqual
  | comma | semicolon | colon | dot
  | leftParen | rightParen | leftBrace | rightBrace | leftBracket | rightBracket
  | functionWord | classWord | letWord | ifWord | elseWord | returnWord | trueWord | falseWord
  | andWord | orWord | forWord | whileWord | breakWord | nullWord
  deriving DecidableEq, Repr

namespace Kind

/-- Every kind, in the order of their numbers. -/
def all : List Kind :=
  [illegal, endOfInput, identifier, number, string,
   assign, plus, minus, asterisk, slash, exclamation, caret,
   greater, less, greaterEqual, lessEqual, equal, notEqual,
   comma, semicolon, colon, dot,
   leftParen, rightParen, leftBrace, rightBrace, leftBracket, rightBracket,
   functionWord, classWord, letWord, ifWord, elseWord, returnWord, trueWord, falseWord,
   andWord, orWord, forWord, whileWord, breakWord, nullWord]

/-- The place of a kind among all kinds, from one. -/
def code (kind : Kind) : Nat := all.idxOf kind + 1

/-- The name under which a kind is shown. -/
def name : Kind → String
  | illegal => "ILLEGAL" | endOfInput => "EOF"
  | identifier => "IDENT" | number => "NUMBER" | string => "STRING"
  | assign => "ASSIGN" | plus => "PLUS" | minus => "MINUS" | asterisk => "ASTERISK" | slash => "SLASH"
  | exclamation => "EXCLAMATION" | caret => "CARET"
  | greater => "GT" | less => "LT" | greaterEqual => "GE" | lessEqual => "LE" | equal => "EQ" | notEqual => "NOT_EQ"
  | comma => "COMMA" | semicolon => "SEMICOLON" | colon => "COLON" | dot => "DOT"
  | leftParen => "LPAREN" | rightParen => "RPAREN" | leftBrace => "LBRACE" | rightBrace => "RBRACE"
  | leftBracket => "LBRACKET" | rightBracket => "RBRACKET"
  | functionWord => "FUNCTION" | classWord => "CLASS" | letWord => "LET" | ifWord => "IF" | elseWord => "ELSE"
  | returnWord => "RETURN" | trueWord => "TRUE" | falseWord => "FALSE" | andWord => "AND" | orWord => "OR"
  | forWord => "FOR" | whileWord => "WHILE" | breakWord => "BREAK" | nullWord => "NULL"

/-- The kind that is shown under a name. -/
def ofName? (name : String) : Option Kind := all.find? fun kind => kind.name = name

/-- The words that are no identifiers. -/
def keywords : List (String × Kind) :=
  [("fn", functionWord), ("class", classWord), ("let", letWord), ("if", ifWord), ("else", elseWord),
   ("return", returnWord), ("true", trueWord), ("false", falseWord), ("and", andWord), ("or", orWord),
   ("for", forWord), ("while", whileWord), ("break", breakWord), ("null", nullWord)]

/-- A word is a keyword or an identifier. -/
def ofWord (word : String) : Kind := (keywords.lookup word).getD identifier

/-- The characters that are a token whatever follows. The slash is among them: two slashes begin a comment, which is
    passed over before a token begins. -/
def ofSymbol? : Char → Option Kind
  | '(' => some leftParen
  | ')' => some rightParen
  | '{' => some leftBrace
  | '}' => some rightBrace
  | '[' => some leftBracket
  | ']' => some rightBracket
  | ',' => some comma
  | ';' => some semicolon
  | ':' => some colon
  | '.' => some dot
  | '+' => some plus
  | '-' => some minus
  | '*' => some asterisk
  | '/' => some slash
  | '^' => some caret
  | _ => none

/-- The characters that take an equals sign behind them: the kind without it and the kind with it. -/
def ofOperator? : Char → Option (Kind × Kind)
  | '=' => some (assign, equal)
  | '!' => some (exclamation, notEqual)
  | '<' => some (less, lessEqual)
  | '>' => some (greater, greaterEqual)
  | _ => none

/-- The keywords that open a statement. -/
def statementOpeners : List Kind :=
  [classWord, functionWord, letWord, forWord, ifWord, whileWord, returnWord]

end Kind

end ExprLang
