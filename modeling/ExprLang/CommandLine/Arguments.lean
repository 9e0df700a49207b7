import ExprLang.CommandLine.Usage
import ExprLang.Text.Digit

/-! Reading the words of a call. Each word is an option, the separator `--`, an argument, or something like an option
    that there is not. The command and the script are the first two arguments that stand together; a script cannot
    stand apart from its command. -/

namespace ExprLang.CommandLine

/-- What a word does. -/
inductive Word
  | argument (text : String)
  | separator
  | flag (flag : Flag)
  /-- An option with a value, which no option takes. -/
  | valued (flag : Flag) (value : String)
  | unknown (text : String)
  deriving DecidableEq, Repr

/-- The text looks like a negative number: a minus, digits and perhaps a point among them, with a digit at the end. A
    newline behind it is overlooked. -/
def isNegativeNumber (text : List Char) : Bool :=
  match text with
  | '-' :: number =>
    let number := if number.getLast? = some '\n' then number.dropLast else number
    match number.dropWhile Text.isDecimalDigit with
    | [] => !number.isEmpty
    | '.' :: fraction => !fraction.isEmpty && fraction.all Text.isDecimalDigit
    | _ => false
  | _ => false

/-- A word that begins like an option and is none. -/
def otherwise (text : String) : Word :=
  if isNegativeNumber text.toList ∨ ' ' ∈ text.toList then .argument text else .unknown text

/-- Each letter `h` behind `-h` is one more such option; what is left from the first other character on is a value. -/
def helpLetters : List Char → Word
  | [] => .flag .help
  | 'h' :: more => helpLetters more
  | value => .valued .help (String.ofList value)

/-- What stands behind `-h` in one word. A `=` right behind it is not read, and must have something behind it. -/
def behindShortHelp : List Char → Word
  | ['='] => .valued .help ""
  | '=' :: letters => helpLetters letters
  | letters => helpLetters letters

/-- The name of an option behind its two dashes. -/
def Flag.longName : Flag → List Char
  | .help => "help".toList
  | .debug => "debug".toList

/-- A word of two dashes and more: an option, or the beginning of one, and perhaps a value. -/
def ofLong (text : String) (body : List Char) : Except UsageError Word :=
  let name := body.takeWhile (· ≠ '=')
  let value? := (body.dropWhile (· ≠ '=')).tail?
  let found (flag : Flag) : Word :=
    match value? with
    | none => .flag flag
    | some value => .valued flag (String.ofList value)
  match [Flag.help, Flag.debug].filter fun flag => name.isPrefixOf flag.longName with
  | [] => .ok (otherwise text)
  | [flag] => .ok (found flag)
  | _ => .error (.ambiguous text)

/-- What a word in front of the separator does. -/
def ofText (text : String) : Except UsageError Word :=
  match text.toList with
  | ['-'] => .ok (.argument text)
  | '-' :: '-' :: body => ofLong text body
  | '-' :: 'h' :: body => .ok (behindShortHelp body)
  | '-' :: _ => .ok (otherwise text)
  | _ => .ok (.argument text)

/-- What the words of a call do. The first `--` makes arguments of all words behind it. -/
def ofTexts : List String → Except UsageError (List Word)
  | [] => .ok []
  | text :: texts =>
    if text = "--" then .ok (.separator :: texts.map .argument)
    else do
      let word ← ofText text
      return word :: (← ofTexts texts)

/-- What the program is asked to do. -/
structure Job where
  command : Shell.Command
  script : Option String
  debug : Bool
  deriving DecidableEq, Repr

/-- Why a call is no job. -/
inductive Refusal
  | help
  | usage (error : UsageError)
  deriving DecidableEq, Repr

/-- What is known of a call of which some words are read. -/
structure Reading where
  /-- The command and its script. -/
  arguments : Option (Shell.Command × Option String) := none
  debug : Bool := false
  /-- Words without a use. -/
  extras : List String := []

/-- The command and its script. A second separator is no script. -/
def Reading.withArguments (r : Reading) (command : String) (script : Option String) : Except Refusal Reading :=
  match Shell.Command.ofWord command with
  | .error _ => .error (.usage (.unknownCommand command))
  | .ok command => .ok { r with arguments := some (command, script.filter (· ≠ "--")) }

/-- Reads words from the front. The separator has a use only beside the command or the script. -/
def Reading.readAll (r : Reading) : List Word → Except Refusal Reading
  | [] => .ok r
  | .flag .help :: _ => .error .help
  | .flag .debug :: words => Reading.readAll { r with debug := true } words
  | .valued flag value :: _ => .error (.usage (.unwantedValue flag value))
  | .unknown text :: words => Reading.readAll { r with extras := r.extras ++ [text] } words
  | .separator :: words =>
    if r.arguments.isNone ∧ words ≠ [] then Reading.readAll r words
    else Reading.readAll { r with extras := r.extras ++ ["--"] } words
  | .argument text :: words =>
    if r.arguments.isSome then Reading.readAll { r with extras := r.extras ++ [text] } words
    else
      match words with
      | .separator :: .argument script :: words => do (← r.withArguments text script).readAll words
      | .separator :: words => do (← r.withArguments text none).readAll words
      | .argument script :: .separator :: words => do (← r.withArguments text script).readAll words
      | .argument script :: words => do (← r.withArguments text script).readAll words
      | words => do (← r.withArguments text none).readAll words

/-- The job of a call in which every word has a use. -/
def Reading.job (r : Reading) : Except Refusal Job :=
  match r.arguments, r.extras with
  | none, _ => .error (.usage .missingCommand)
  | some (command, script), [] => .ok ⟨command, script, r.debug⟩
  | some _, extras => .error (.usage (.unrecognized extras))

/-- The job that the words of a call ask for. -/
def Job.ofArguments (texts : List String) : Except Refusal Job := do
  let words ← (ofTexts texts).mapError .usage
  (← Reading.readAll {} words).job

end ExprLang.CommandLine
