import ExprLang.Proofs.Parser.Numbered
import ExprLang.Proofs.Shell.Run

/-! # What a session remembers

A session is asked for one step after another: a text, a file, what is typed at the prompt, or a report of its own. What
a step writes is fixed by the session's command and by the step, as if the session were new (`output_perform`). Of the
past only whether there was an error is kept, until a line at the prompt clears it; a file fails if there was one. A
tree that is too deep to be shown breaks off its step, and with it the lines that were typed behind it. -/

namespace ExprLang.Shell.Session

open ExprLang.Parser

variable {stack : Stack}

/-! ### The prompt -/

/-- What is written where lines are typed at the prompt: each line is run as in a new session. -/
def typed (stack : Stack) (command : Command) (debug : Bool) (lines : List String) : List Piece :=
  lines.flatMap (fun text => ⟨.prompts, prompt⟩ :: ((fresh command debug).run stack text false).output) ++
    [⟨.prompts, prompt⟩]

theorem typed_cons (command : Command) (debug : Bool) (text : String) (lines : List String) :
    typed stack command debug (text :: lines) =
      ⟨.prompts, prompt⟩ ::
        (((fresh command debug).run stack text false).output ++ typed stack command debug lines) := by
  simp [typed]

/-- There is room to show what is typed. -/
def ShowableLines (stack : Stack) (lines : List String) (command : Command) : Prop :=
  ∀ text ∈ lines, Showable stack text false command

instance (stack : Stack) (lines : List String) (command : Command) : Decidable (ShowableLines stack lines command) :=
  inferInstanceAs (Decidable (∀ text ∈ lines, Showable stack text false command))

theorem runLine_eq (s : Session) {text : String} (h : Showable stack text false s.command) :
    s.runLine stack text = { s.run stack text false with session := { s with hadError := false } } := by
  rw [runLine, if_pos (s.run_returned h), session_run]

theorem runLines_eq (s : Session) {lines : List String} (h : ShowableLines stack lines s.command) :
    s.runLines stack lines =
      { output := typed stack s.command s.debug lines,
        session := { s with hadError := if lines = [] then s.hadError else false } } := by
  -- A line hands on another session than it was given, so the induction is over all of them.
  induction lines generalizing s with
  | nil => rfl
  | cons text lines ih =>
    obtain ⟨first, rest⟩ := List.forall_mem_cons.mp h
    have returned : (s.runLine stack text).ending = .returned := by
      rw [runLine_eq s first]
      exact s.run_returned first
    have others := ih { s with hadError := false } rest
    rw [runLines, if_pos returned, runLine_eq s first, others, output_run, typed_cons]
    simp

theorem writtenTo_prompts_typed (command : Command) (debug : Bool) (lines : List String) :
    writtenTo .prompts (typed stack command debug lines) = List.replicate (lines.length + 1) prompt := by
  induction lines with
  | nil => rfl
  | cons text lines ih =>
    rw [typed_cons, List.length_cons, List.replicate_succ, writtenTo_cons_self, writtenTo_append, prompts_run, ih]
    rfl

theorem writtenTo_typed {channel : Channel} (other : .prompts ≠ channel) (command : Command) (debug : Bool)
    (lines : List String) : writtenTo channel (typed stack command debug lines) =
      lines.flatMap fun text => writtenTo channel ((fresh command debug).run stack text false).output := by
  induction lines with
  | nil => exact writtenTo_cons_of_ne other []
  | cons text lines ih => rw [typed_cons, writtenTo_cons_of_ne other, writtenTo_append, ih, List.flatMap_cons]

theorem exists_session_runLine (s : Session) (text : String) :
    ∃ hadError, (s.runLine stack text).session = { s with hadError } := by
  rw [runLine]
  split
  · exact ⟨false, by rw [session_run]⟩
  · exact ⟨_, s.session_run stack text false⟩

/-- Lines change nothing of a session but whether there was an error. -/
theorem exists_session_runLines (s : Session) (lines : List String) :
    ∃ hadError, (s.runLines stack lines).session = { s with hadError } := by
  induction lines generalizing s with
  | nil => exact ⟨s.hadError, rfl⟩
  | cons text lines ih =>
    obtain ⟨hadError, eq⟩ := s.exists_session_runLine text
    rw [runLines]
    split
    · obtain ⟨hadError', eq'⟩ := ih (s.runLine stack text).session
      exact ⟨hadError', eq'.trans (by rw [eq])⟩
    · exact ⟨hadError, eq⟩

theorem runLine_alike {s s' : Session} (same : s.command = s'.command) (same' : s.debug = s'.debug) (text : String) :
    (s.runLine stack text).output = (s'.runLine stack text).output ∧
      (s.runLine stack text).ending = (s'.runLine stack text).ending := by
  obtain ⟨output, ending⟩ := run_alike same same' stack text false
  rw [runLine, runLine]
  by_cases returned : (s.run stack text false).ending = .returned
  · rw [if_pos returned, if_pos (ending ▸ returned)]
    exact ⟨output, ending⟩
  · rw [if_neg returned, if_neg (ending ▸ returned)]
    exact ⟨output, ending⟩

theorem output_runLines {s s' : Session} (same : s.command = s'.command) (same' : s.debug = s'.debug)
    (lines : List String) : (s.runLines stack lines).output = (s'.runLines stack lines).output := by
  induction lines generalizing s s' with
  | nil => rfl
  | cons text lines ih =>
    obtain ⟨output, ending⟩ := runLine_alike same same' text
    obtain ⟨hadError, eq⟩ := s.exists_session_runLine text
    obtain ⟨hadError', eq'⟩ := s'.exists_session_runLine text
    have behind : ((s.runLine stack text).session.runLines stack lines).output =
        ((s'.runLine stack text).session.runLines stack lines).output :=
      ih (by rw [eq, eq', same]) (by rw [eq, eq', same'])
    rw [runLines, runLines, ending]
    split
    · simp [output, behind]
    · simp [output]

/-! ### Lines -/

/-- The lines of a text: none of them goes over a newline, and with a newline behind each they are the text again, or
    the text with the newline that its last line lacks. -/
structure AreLines (text : String) (lines : List String) : Prop where
  inner : ∀ line ∈ lines, '\n' ∉ line.toList
  joined : lines.flatMap (fun line => line.toList ++ ['\n']) =
    if text.toList = [] ∨ text.toList.getLast? = some '\n' then text.toList else text.toList ++ ['\n']

theorem areLines_linesOf (input : String) : AreLines (Text.unified input) (linesOf input) where
  inner := by
    intro line member
    obtain ⟨chars, inside, rfl⟩ := List.mem_map.mp member
    rw [String.toList_ofList]
    exact Text.newline_not_mem_lines _ chars inside
  joined := by
    rw [linesOf, List.flatMap_map, Text.unified, String.toList_ofList, ← Text.flatMap_lines]
    simp

def NamesLineOne (message : String) : Prop := "[line 1] Error".toList <+: message.toList

theorem namesLineOne_append (rest : String) : NamesLineOne ("[line 1] Error" ++ rest) := by
  rw [NamesLineOne, String.toList_append]
  exact List.prefix_append _ _

theorem namesLineOne_diagnostic {diagnostic : Diagnostic} (h : diagnostic.line = 1) :
    NamesLineOne diagnostic.text := by
  have front : "[line " ++ toString (1 : Int) ++ "] Error: " = "[line 1] Error" ++ ": " := by decide +kernel
  have text : diagnostic.text = "[line " ++ toString diagnostic.line ++ "] Error: " ++ diagnostic.problem.message := rfl
  rw [text, h, front, String.append_assoc]
  exact namesLineOne_append _

theorem namesLineOne_syntaxError {error : SyntaxError} (h : error.token.line = 1) : NamesLineOne error.text := by
  have front : "[line " ++ toString (1 : Int) ++ "] Error " = "[line 1] Error" ++ " " := by decide +kernel
  have text : ∃ place, error.text =
      "[line " ++ toString error.token.line ++ "] Error " ++ place ++ ": " ++ error.complaint.message := ⟨_, rfl⟩
  obtain ⟨place, text⟩ := text
  rw [text, h, front]
  simp only [String.append_assoc]
  exact namesLineOne_append _

theorem messages_of_line {line : String} (one : '\n' ∉ line.toList) (command : Command) :
    ∀ message ∈ messages stack line false command, NamesLineOne message := by
  have last : Scanner.lastLine line = 1 := by
    rw [Scanner.lastLine, List.count_eq_zero_of_not_mem one]
    rfl
  have only : ∀ {number : Int}, OnLine (Scanner.lastLine line) number → number = 1 := by
    rintro number ⟨low, high⟩
    rw [last] at high
    omega
  cases command with
  | tokens =>
    refine List.forall_mem_map.mpr fun diagnostic member => ?_
    exact namesLineOne_diagnostic (only (Scanner.numbered_tokenize line diagnostic member))
  | trees =>
    obtain ⟨tree, p, run⟩ := exists_parse stack (Readable.of_fresh (p := .ofText line) rfl)
    obtain ⟨diagnostics, errors⟩ := lines_of_parse run
    have read : readTrees stack false (.ofText line) = _ := firstTree_of_parse run
    rw [messages_trees read]
    refine List.forall_mem_append.mpr ⟨?_, ?_⟩
    · exact List.forall_mem_map.mpr fun diagnostic member =>
        namesLineOne_diagnostic (only (diagnostics diagnostic member))
    · exact List.forall_mem_map.mpr fun error member => namesLineOne_syntaxError (only (errors error member))

/-! ### Steps -/

/-- The turns of steps one after another. -/
def turns (s : Session) : List (Stack × Step) → List Turn
  | [] => []
  | (stack, step) :: steps => s.perform stack step :: (s.perform stack step).session.turns steps

/-- The session after steps. -/
def after (s : Session) (steps : List (Stack × Step)) : Session :=
  steps.foldl (fun s step => (s.perform step.1 step.2).session) s

/-- A step writes what it would write in a new session. -/
theorem output_perform (stack : Stack) (s : Session) (step : Step) :
    (s.perform stack step).output = ((fresh s.command s.debug).perform stack step).output := by
  cases step with
  | run source whole => exact s.output_run stack source whole
  | runFile content =>
    show (s.runFile stack content).output = ((fresh s.command s.debug).runFile stack content).output
    cases decoded : Text.Utf8.decode content with
    | error fault => rw [runFile, runFile, decoded]
    | ok text =>
      rw [runFile_eq stack s decoded, runFile_eq stack (fresh s.command s.debug) decoded]
      exact s.output_run stack (Text.unified text) true
  | runPrompt input =>
    have same : s.command = (fresh s.command s.debug).command := rfl
    exact output_runLines same rfl (linesOf input)
  | report message => rfl

theorem exists_session_perform (stack : Stack) (s : Session) (step : Step) :
    ∃ hadError, (s.perform stack step).session = { s with hadError } := by
  cases step with
  | run source whole => exact ⟨_, s.session_run stack source whole⟩
  | runFile content =>
    show ∃ hadError, (s.runFile stack content).session = _
    cases decoded : Text.Utf8.decode content with
    | error fault =>
      rw [runFile, decoded]
      exact ⟨s.hadError, rfl⟩
    | ok text =>
      rw [runFile_eq stack s decoded]
      exact ⟨_, s.session_run stack (Text.unified text) true⟩
  | runPrompt input => exact s.exists_session_runLines (linesOf input)
  | report message => exact ⟨_, rfl⟩

theorem exists_after (s : Session) (steps : List (Stack × Step)) :
    ∃ hadError, s.after steps = { s with hadError } := by
  induction steps generalizing s with
  | nil => exact ⟨s.hadError, rfl⟩
  | cons step steps ih =>
    obtain ⟨hadError, eq⟩ := exists_session_perform step.1 s step.2
    obtain ⟨hadError', eq'⟩ := ih (s.perform step.1 step.2).session
    exact ⟨hadError', eq'.trans (by rw [eq])⟩

theorem outputs_turns (s : Session) (steps : List (Stack × Step)) : (s.turns steps).map Turn.output =
    steps.map fun step => ((fresh s.command s.debug).perform step.1 step.2).output := by
  induction steps generalizing s with
  | nil => rfl
  | cons step steps ih =>
    obtain ⟨hadError, eq⟩ := exists_session_perform step.1 s step.2
    rw [turns, List.map_cons, List.map_cons, ih, eq, ← output_perform]

/-! ### Sessions -/

/-- What the steps do in a session, with this room on the stack. -/
structure Lawful (stack : Stack) (s : Session) : Prop where
  memoryless (step : Step) : (s.perform stack step).output = ((fresh s.command s.debug).perform stack step).output
  /-- A run returns unless it is broken off by a tree that there is no room to show. -/
  run_ending (source : String) (whole : Bool) : (s.perform stack (.run source whole)).ending = .returned ∨
    (s.perform stack (.run source whole)).ending = .fault (.unprintable .stackOverflow) ∧
      ∃ tree ∈ shownTrees stack source whole s.command, ¬tree.Fits stack
  /-- A run reports its messages, behind the list of tokens if there is one, and keeps whether there were any. -/
  run_errors (source : String) (whole : Bool) : writtenTo .errors (s.perform stack (.run source whole)).output =
    (listing source s.debug s.command ++ messages stack source whole s.command).map (· ++ "\n")
  run_hadError (source : String) (whole : Bool) : (s.perform stack (.run source whole)).session.hadError =
    (s.hadError || !(messages stack source whole s.command).isEmpty)
  report (message : String) : s.perform stack (.report message) =
    { output := [⟨.errors, message ++ "\n"⟩], session := { s with hadError := true } }
  /-- A file is run as a whole, and fails if there is an error after that, of the file or from before. -/
  file {content : List UInt8} {text : String} (h : Text.Utf8.decode content = .ok text)
    (fits : Showable stack (Text.unified text) true s.command) :
    s.perform stack (.runFile content) = { s.perform stack (.run (Text.unified text) true) with
      ending := if (s.perform stack (.runFile content)).session.hadError then .exit 65 else .returned }
  lines (input : String) : AreLines (Text.unified input) (linesOf input)
  /-- The prompt is written in front of every line, and once more. -/
  prompts {input : String} (fits : ShowableLines stack (linesOf input) s.command) :
    writtenTo .prompts (s.perform stack (.runPrompt input)).output =
      List.replicate ((linesOf input).length + 1) ">> "
  typed {channel : Channel} (other : .prompts ≠ channel) {input : String}
    (fits : ShowableLines stack (linesOf input) s.command) :
    writtenTo channel (s.perform stack (.runPrompt input)).output = (linesOf input).flatMap fun line =>
      writtenTo channel ((fresh s.command s.debug).run stack line false).output
  typed_returned {input : String} (fits : ShowableLines stack (linesOf input) s.command) :
    (s.perform stack (.runPrompt input)).ending = .returned
  typed_hadError {input : String} (fits : ShowableLines stack (linesOf input) s.command) :
    (s.perform stack (.runPrompt input)).session.hadError = if linesOf input = [] then s.hadError else false
  line_one (input : String) : ∀ line ∈ linesOf input, ∀ message ∈ messages stack line false s.command,
    NamesLineOne message

theorem lawful (stack : Stack) (s : Session) : s.Lawful stack := by
  have prompted (input : String) : s.perform stack (.runPrompt input) = s.runLines stack (linesOf input) := rfl
  refine ⟨s.output_perform stack, s.ending_run stack, s.errors_run stack, ?_, ?_, ?_, areLines_linesOf, ?_, ?_, ?_, ?_,
    fun input line member => messages_of_line ((areLines_linesOf input).inner line member) s.command⟩
  · exact fun source whole => congrArg Session.hadError (s.session_run stack source whole)
  · intro message
    simp [perform, Session.report, line]
  · intro content text h fits
    have returned := s.run_returned fits
    have ran := s.runFile_eq stack h
    have kept : (s.runFile stack content).session = (s.run stack (Text.unified text) true).session := by rw [ran]
    show s.runFile stack content = { s.run stack (Text.unified text) true with
      ending := if (s.runFile stack content).session.hadError then .exit 65 else .returned }
    rw [kept, ran, returned]
    simp only [true_and, dataError]
  · intro input fits
    rw [prompted, runLines_eq s fits]
    exact writtenTo_prompts_typed _ _ _
  · intro channel other input fits
    rw [prompted, runLines_eq s fits]
    exact writtenTo_typed other _ _ _
  · intro input fits
    rw [prompted, runLines_eq s fits]
  · intro input fits
    rw [prompted, runLines_eq s fits]

end ExprLang.Shell.Session
