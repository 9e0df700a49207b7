import ExprLang.CommandLine.Run

/-! The program: it reads files and the terminal, and writes what a session has to say. -/

namespace ExprLang

open CommandLine Shell

/-- Writes to the standard streams. -/
def write (pieces : List Piece) : IO Unit := do
  for piece in pieces do
    let stream ← if piece.channel = .errors then IO.getStderr else IO.getStdout
    stream.putStr piece.text
    stream.flush

/-- The status of the program for the way a session ends. -/
def status : Ending → IO UInt32
  | .returned => return 0
  | .exit code => return UInt32.ofNat code
  | .fault fault => do
    write [line .errors fault.message]
    return 1

/-- Shows lines that were typed; the prompt in front of the first has been written. -/
def showTyped (session : Session) : List String → IO (Session × Ending)
  | [] => return (session, .returned)
  | text :: texts => do
    let turn := session.runLine .standard text
    write turn.output
    match turn.ending with
    | .returned =>
      if !texts.isEmpty then write [⟨.prompts, prompt⟩]
      showTyped turn.session texts
    | ending => return (turn.session, ending)

/-- Prompts until the input ends. -/
partial def converse (session : Session) : IO Ending := do
  write [⟨.prompts, prompt⟩]
  let typed ← (← IO.getStdin).getLine
  if typed.isEmpty then return .returned
  match ← showTyped session (Session.linesOf typed) with
  | (session, .returned) => converse session
  | (_, ending) => return ending

/-- The content of a file on the disk. -/
def readScript (path : String) : IO (Except Fault (List UInt8)) := do
  try
    return .ok (← IO.FS.readBinFile path).toList
  catch
    | .noFileOrDirectory .. => return .error (.noSuchFile path)
    | .inappropriateType _ code _ => return .error (if code = 20 then .notADirectory path else .isDirectory path)
    | other => throw other

end ExprLang

open ExprLang in
def main (arguments : List String) : IO UInt32 := do
  match CommandLine.Job.ofArguments arguments with
  | .error refusal =>
    write refusal.outcome.output
    status refusal.outcome.ending
  | .ok job =>
    match job.path? with
    | none => status (← converse job.session)
    | some path =>
      match ← readScript path with
      | .error fault => status (.fault fault)
      | .ok content =>
        let turn := job.session.runFile .standard content
        write turn.output
        status turn.ending
