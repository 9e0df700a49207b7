import ExprLang.CommandLine.Arguments

/-! A whole run of the program: a call, the files it can see and what is typed, to what it writes and how it ends. -/

namespace ExprLang.CommandLine

open Shell

/-- What a run writes and how it ends. -/
structure Outcome where
  output : List Piece
  ending : Ending
  deriving DecidableEq, Repr

/-- What a call that is no job comes to. -/
def Refusal.outcome : Refusal → Outcome
  | .help => ⟨[⟨.results, CommandLine.help⟩], .exit 0⟩
  | .usage error => ⟨[⟨.errors, error.text⟩], .exit 64⟩

/-- The files of a folder by their names. -/
abbrev Folder := List (String × List UInt8)

/-- The content of the file that a path leads to. A path of dots leads to a folder, the steps of any other path begin in
    this folder unless it begins with a slash, and there is no step on from a file. -/
def Folder.read (folder : Folder) (path : String) : Except Fault (List UInt8) :=
  let steps := path.splitOn "/"
  if steps.all (· ∈ ["", ".", ".."]) then .error (.isDirectory path)
  else if steps.head? = some "" then .error (.noSuchFile path)
  else
    match steps.dropWhile (· ∈ ["", "."]) with
    | [] => .error (.isDirectory path)
    | name :: more =>
      match folder.lookup name with
      | none => .error (.noSuchFile path)
      | some content => if more = [] then .ok content else .error (.notADirectory path)

/-- The session of a job. -/
def Job.session (job : Job) : Session := { command := job.command, debug := job.debug }

/-- The script of a job, if it has one; the prompt takes the place of a script without a name. -/
def Job.path? (job : Job) : Option String := job.script.filter (· ≠ "")

def run (stack : Stack) (texts : List String) (folder : Folder) (input : String) : Outcome :=
  match Job.ofArguments texts with
  | .error refusal => refusal.outcome
  | .ok job =>
    match job.path? with
    | none =>
      let turn := job.session.runPrompt stack input
      ⟨turn.output, turn.ending⟩
    | some path =>
      match folder.read path with
      | .error fault => ⟨[], .fault fault⟩
      | .ok content =>
        let turn := job.session.runFile stack content
        ⟨turn.output, turn.ending⟩

end ExprLang.CommandLine
