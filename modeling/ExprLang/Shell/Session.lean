import ExprLang.Expr.Printer
import ExprLang.Parser.Recovery
import ExprLang.Shell.Output
import ExprLang.Text.Line

/-! A session shows the tokens or the trees of texts, and remembers only whether something was reported. -/

namespace ExprLang.Shell

/-- What a session shows. -/
inductive Command
  | tokens | trees
  deriving DecidableEq, Repr

namespace Command

def name : Command → String
  | .tokens => "lexer"
  | .trees => "parser"

/-- The words for the commands. -/
def words : List (String × Command) :=
  [("lexer", tokens), ("lex", tokens), ("parser", trees), ("ast", trees)]

/-- A command is asked for by a word that there is not. -/
structure Unknown where
  word : String
  deriving DecidableEq, Repr

def Unknown.message (unknown : Unknown) : String := Text.quoted unknown.word

def ofWord (word : String) : Except Unknown Command :=
  match words.lookup word with
  | some command => .ok command
  | none => .error ⟨word⟩

end Command

structure Session where
  command : Command
  /-- List the tokens before the trees. -/
  debug : Bool := false
  hadError : Bool := false
  deriving DecidableEq, Repr

/-- What a step writes, how it ends and the session after it. -/
structure Turn where
  output : List Piece
  session : Session
  ending : Ending := .returned
  deriving DecidableEq, Repr

/-- What is written in front of the prompt's lines. -/
def prompt : String := ">> "

/-- The status of a file with errors. -/
def dataError : Nat := 65

namespace Session

/-- Reports messages, a line each. -/
def report (s : Session) (messages : List String) : List Piece × Session :=
  (messages.map (line .errors), { s with hadError := s.hadError || !messages.isEmpty })

/-- Shows the tokens of a text, then what is wrong with it. -/
def showTokens (s : Session) (source : String) : Turn :=
  let (tokens, diagnostics) := Scanner.tokenize source
  let (reports, after) := s.report (diagnostics.map Diagnostic.text)
  { output := tokens.map (fun token => line .results token.text) ++ reports, session := after }

/-- The first tree of a text, if there was no error. -/
def firstTree (stack : Stack) : Parser.Work (List Expr) := do
  let tree ← Parser.parse stack
  return if (← get).hadError then [] else [tree]

/-- The list of tokens that a session with `debug` writes. -/
def dump (s : Session) (source : String) : List Piece :=
  if s.debug then
    line .errors "Lexed tokens:" :: (Scanner.tokenize source).1.map fun token => line .errors token.text
  else []

/-- Shows what is wrong with a text, then the trees that could be read from it. -/
def showTrees (stack : Stack) (s : Session) (source : String) (whole : Bool) : Turn :=
  let dumped := s.dump source
  match (if whole then Parser.parseAll stack else firstTree stack) (.ofText source) with
  | .error failure _ => ⟨dumped, s, .fault (.parser failure)⟩
  | .ok trees p =>
    let (reports, after) :=
      s.report (p.scanner.diagnostics.toList.map Diagnostic.text ++ p.errors.toList.map SyntaxError.text)
    if trees.isEmpty then ⟨dumped ++ reports, after, .returned⟩
    else
      match Expr.printAll stack trees with
      | .ok text => ⟨dumped ++ reports ++ [line .results text], after, .returned⟩
      | .error failure => ⟨dumped ++ reports, after, .fault (.unprintable failure)⟩

/-- Shows a text, or the first expression of it. -/
def run (stack : Stack) (s : Session) (source : String) (whole : Bool) : Turn :=
  match s.command with
  | .tokens => s.showTokens source
  | .trees => s.showTrees stack source whole

/-- Shows the text of a file. Errors, of this file or of an earlier step, make the status of the program. -/
def runFile (stack : Stack) (s : Session) (content : List UInt8) : Turn :=
  match Text.Utf8.decode content with
  | .error fault => ⟨[], s, .fault (.undecodable fault)⟩
  | .ok source =>
    let turn := s.run stack (String.ofList (Text.unifyLineEnds source.toList)) true
    if turn.ending = .returned ∧ turn.session.hadError then { turn with ending := .exit dataError } else turn

/-- Shows one line from the prompt. Its errors are forgotten with it. -/
def runLine (stack : Stack) (s : Session) (text : String) : Turn :=
  let turn := s.run stack text false
  if turn.ending = .returned then { turn with session := { turn.session with hadError := false } } else turn

/-- Shows line after line, each behind a prompt. The prompt is written once more where the lines end. -/
def runLines (stack : Stack) (s : Session) : List String → Turn
  | [] => ⟨[⟨.prompts, prompt⟩], s, .returned⟩
  | text :: texts =>
    let turn := s.runLine stack text
    let output := ⟨.prompts, prompt⟩ :: turn.output
    if turn.ending = .returned then
      let others := turn.session.runLines stack texts
      { others with output := output ++ others.output }
    else { turn with output }

/-- The lines of what is typed. -/
def linesOf (input : String) : List String := (Text.lines (Text.unifyLineEnds input.toList)).map String.ofList

/-- Shows the lines of what is typed. -/
def runPrompt (stack : Stack) (s : Session) (input : String) : Turn := s.runLines stack (linesOf input)

/-- What a session can be asked for. -/
inductive Step
  | run (source : String) (whole : Bool)
  | runFile (content : List UInt8)
  | runPrompt (input : String)
  | report (message : String)
  deriving DecidableEq, Repr

/-- Does a step. The stack is the one there is where the step runs a text. -/
def perform (stack : Stack) (s : Session) : Step → Turn
  | .run source whole => s.run stack source whole
  | .runFile content => s.runFile stack content
  | .runPrompt input => s.runPrompt stack input
  | .report message =>
    let (reports, after) := s.report [message]
    { output := reports, session := after }

end Session

end ExprLang.Shell
