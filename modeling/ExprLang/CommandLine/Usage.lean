import ExprLang.Shell.Session

/-! How the program is called, what it says about itself and about a call that it does not understand. -/

namespace ExprLang.CommandLine

/-- The options. -/
inductive Flag
  | help | debug
  deriving DecidableEq, Repr

/-- The name of an option in messages about it. -/
def Flag.title : Flag → String
  | .help => "-h/--help"
  | .debug => "--debug"

/-- The words for the commands, in alphabetical order. -/
def choices : List String := (Shell.Command.words.map Prod.fst).mergeSort fun a b => decide (a ≤ b)

def usage : String := "usage: liu [-h] [--debug] \x7b" ++ ",".intercalate choices ++ "\x7d [script]\n"

def help : String :=
  usage ++
  "\nShow the lexer or parser structure of liu expressions.\n" ++
  "\npositional arguments:\n" ++
  "  \x7b" ++ ",".intercalate choices ++ "\x7d\n" ++
  "                        lexer/lex shows the token list, parser/ast shows the\n" ++
  "                        ast\n" ++
  "  script                source file to process; omit for an interactive prompt\n" ++
  "\noptions:\n" ++
  "  -h, --help            show this help message and exit\n" ++
  "  --debug               also dump the token list to stderr before the ast\n"

/-- Why a call is not understood. -/
inductive UsageError
  | missingCommand
  | unknownCommand (word : String)
  | unrecognized (words : List String)
  /-- The beginning of both options. -/
  | ambiguous (word : String)
  /-- An option was given a value. -/
  | unwantedValue (flag : Flag) (value : String)
  deriving DecidableEq, Repr

def UsageError.message : UsageError → String
  | .missingCommand => "the following arguments are required: command"
  | .unknownCommand word =>
    "argument command: invalid choice: " ++ Text.quoted word ++ " (choose from " ++
      ", ".intercalate (choices.map Text.quoted) ++ ")"
  | .unrecognized words => "unrecognized arguments: " ++ " ".intercalate words
  | .ambiguous word => "ambiguous option: " ++ word ++ " could match --help, --debug"
  | .unwantedValue flag value =>
    "argument " ++ flag.title ++ ": ignored explicit argument " ++ Text.quoted value

/-- All that is written about a call that is not understood. -/
def UsageError.text (e : UsageError) : String := usage ++ "liu: error: " ++ e.message ++ "\n"

end ExprLang.CommandLine
