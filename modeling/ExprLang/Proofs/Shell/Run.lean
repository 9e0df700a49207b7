import ExprLang.Proofs.Parser.First
import ExprLang.Proofs.Parser.Safety
import ExprLang.Proofs.Parser.Verdict
import ExprLang.Proofs.Text.Input
import ExprLang.Shell.Session

/-! # What a run writes

The parser recovers from every syntax error, and every tree it makes has a text, so a run breaks off in one case only: a
tree that it shows is too deep to be visited. Up to there a run writes, behind the list of tokens that a session may ask
for, its messages, and then what it has to show. All of this is fixed by the command and the text (`exists_runs`); what
happened before in the session has no part in it, and only whether there were messages is kept. -/

namespace ExprLang.Shell

open ExprLang.Parser

/-! ### Channels -/

/-- The texts written to a channel, in their order. -/
def writtenTo (channel : Channel) (pieces : List Piece) : List String :=
  (pieces.filter (·.channel = channel)).map Piece.text

theorem writtenTo_cons_self (channel : Channel) (text : String) (pieces : List Piece) :
    writtenTo channel (⟨channel, text⟩ :: pieces) = text :: writtenTo channel pieces := by
  simp [writtenTo]

theorem writtenTo_cons_of_ne {channel : Channel} {piece : Piece} (h : piece.channel ≠ channel) (pieces : List Piece) :
    writtenTo channel (piece :: pieces) = writtenTo channel pieces := by
  simp [writtenTo, h]

@[simp] theorem writtenTo_append (channel : Channel) (pieces more : List Piece) :
    writtenTo channel (pieces ++ more) = writtenTo channel pieces ++ writtenTo channel more := by
  simp [writtenTo]

@[simp] theorem writtenTo_lines (channel : Channel) (texts : List String) :
    writtenTo channel (texts.map (line channel)) = texts.map (· ++ "\n") := by
  induction texts with
  | nil => rfl
  | cons text texts ih => simpa [writtenTo, line] using ih

@[simp] theorem writtenTo_lines_of_ne {channel other : Channel} (h : other ≠ channel) (texts : List String) :
    writtenTo channel (texts.map (line other)) = [] := by
  simp [writtenTo, line, h]

namespace Session

/-- A session in which nothing was reported yet. -/
def fresh (command : Command) (debug : Bool) : Session := { command, debug }

/-! ### Trees of a text -/

variable {stack : Stack} {source : String} {whole : Bool} {trees : List Expr} {p q : Parser} {command : Command}

/-- What a run reads of a text. -/
def readTrees (stack : Stack) (whole : Bool) : Work (List Expr) := if whole then parseAll stack else firstTree stack

theorem firstTree_of_parse {tree : Expr} (h : parse stack p = .ok tree q) :
    firstTree stack p = .ok (if q.hadError then [] else [tree]) q := by
  rw [firstTree, bind_of_ok h]
  rfl

/-- The work of a run is done without a failure. -/
theorem exists_readTrees (stack : Stack) (source : String) (whole : Bool) :
    ∃ trees p, readTrees stack whole (.ofText source) = .ok trees p ∧ ∀ tree ∈ trees, tree.Whole := by
  have readable : (Parser.ofText source).Readable := .of_fresh rfl
  cases whole with
  | true =>
    obtain ⟨trees, p, run⟩ := exists_parseAll stack readable
    exact ⟨trees, p, run, whole_of_parseAll run readable⟩
  | false =>
    obtain ⟨tree, p, run⟩ := exists_parse stack readable
    refine ⟨_, p, firstTree_of_parse run, ?_⟩
    split
    · exact List.forall_mem_nil _
    · exact List.forall_mem_singleton.mpr (whole_of_parse run readable)

/-- The trees that a run shows. -/
def shownTrees (stack : Stack) (source : String) (whole : Bool) : Command → List Expr
  | .tokens => []
  | .trees =>
    match readTrees stack whole (.ofText source) with
    | .ok trees _ => trees
    | .error _ _ => []

/-- There is room to visit the trees that a run shows. -/
def Showable (stack : Stack) (source : String) (whole : Bool) (command : Command) : Prop :=
  ∀ tree ∈ shownTrees stack source whole command, tree.Fits stack

instance : Decidable (Showable stack source whole command) :=
  inferInstanceAs (Decidable (∀ tree ∈ shownTrees stack source whole command, tree.Fits stack))

/-! ### Messages -/

/-- What a parser has to report: what its scanner met, then its own errors. -/
def complaints (p : Parser) : List String :=
  p.scanner.diagnostics.toList.map Diagnostic.text ++ p.errors.toList.map SyntaxError.text

def messages (stack : Stack) (source : String) (whole : Bool) : Command → List String
  | .tokens => (Scanner.tokenize source).2.map Diagnostic.text
  | .trees =>
    match readTrees stack whole (.ofText source) with
    | .ok _ p => complaints p
    | .error _ _ => []

/-- The list of tokens that a session with `debug` writes in front of the messages, if it shows trees. -/
def listing (source : String) (debug : Bool) : Command → List String
  | .tokens => []
  | .trees => if debug then "Lexed tokens:" :: (Scanner.tokenize source).1.map Token.text else []

theorem dump_eq (s : Session) (source : String) :
    s.dump source = (listing source s.debug .trees).map (line .errors) := by
  rw [dump, listing]
  split
  · rw [List.map_cons, List.map_map]
    rfl
  · rfl

theorem messages_trees (run : readTrees stack whole (.ofText source) = .ok trees p) :
    messages stack source whole .trees = complaints p := by
  rw [messages, run]

theorem shownTrees_trees (run : readTrees stack whole (.ofText source) = .ok trees p) :
    shownTrees stack source whole .trees = trees := by
  rw [shownTrees, run]

/-! ### Runs -/

/-- What a run of a text writes behind the list of tokens, and how it ends. Both are the same in every session with the
    command, and the session keeps whether there were messages. -/
structure Runs (stack : Stack) (command : Command) (source : String) (whole : Bool) (body : List Piece)
    (ending : Ending) : Prop where
  errors : writtenTo .errors body = (messages stack source whole command).map (· ++ "\n")
  prompts : writtenTo .prompts body = []
  /-- A run returns or has come to a tree that there is no room to visit. -/
  ends : ending = .returned ∨ ending = .fault (.unprintable .stackOverflow) ∧
    ∃ tree ∈ shownTrees stack source whole command, ¬tree.Fits stack
  run (s : Session) (h : s.command = command) : s.run stack source whole =
    { output := (listing source s.debug command).map (line .errors) ++ body,
      session := { s with hadError := s.hadError || !(messages stack source whole command).isEmpty }, ending }

theorem runs_tokens (stack : Stack) (source : String) (whole : Bool) :
    Runs stack .tokens source whole (((Scanner.tokenize source).1.map Token.text).map (line .results) ++
      (messages stack source whole .tokens).map (line .errors)) .returned where
  errors := by simp [-List.map_map]
  prompts := by simp [-List.map_map]
  ends := .inl rfl
  run s same := by
    have shows : s.run stack source whole = s.showTokens source := by rw [Session.run, same]
    rw [shows, List.map_map]
    rfl

/-- Trees are shown behind the messages, unless there is no room to visit one of them. -/
theorem runs_trees (run : readTrees stack whole (.ofText source) = .ok trees p) (printable : Printable stack trees) :
    ∃ (results : List String) (ending : Ending), Runs stack .trees source whole
      ((complaints p).map (line .errors) ++ results.map (line .results)) ending := by
  have all := messages_trees run
  have shown := shownTrees_trees run
  have dumped (s : Session) : (listing source s.debug .trees).map (line .errors) = s.dump source :=
    (s.dump_eq source).symm
  have read (s : Session) (same : s.command = .trees) : s.run stack source whole = s.showTrees stack source whole := by
    rw [Session.run, same]
  have errors (results : List String) : writtenTo .errors ((complaints p).map (line .errors) ++
      results.map (line .results)) = (messages stack source whole .trees).map (· ++ "\n") := by simp [all]
  have prompts (results : List String) : writtenTo .prompts ((complaints p).map (line .errors) ++
      results.map (line .results)) = [] := by simp
  have work : (if whole = true then parseAll stack else firstTree stack) (.ofText source) = .ok trees p := run
  have texts := printable.cases
  cases trees with
  | nil =>
    refine ⟨[], .returned, errors _, prompts _, .inl rfl, fun s same => ?_⟩
    rw [read s same, showTrees, work, dumped, all, List.map_nil, List.append_nil]
    rfl
  | cons tree trees =>
    cases eq : Expr.printAll stack (tree :: trees) with
    | ok text =>
      refine ⟨[text], .returned, errors _, prompts _, .inl rfl, fun s same => ?_⟩
      rw [read s same, showTrees, work, dumped, all, ← List.append_assoc]
      simp only [List.isEmpty_cons, Bool.false_eq_true, ↓reduceIte, eq]
      rfl
    | error failure =>
      obtain ⟨rfl, beyond⟩ := printable.of_failure eq
      refine ⟨[], .fault (.unprintable .stackOverflow), errors _, prompts _, .inr ⟨rfl, shown.symm ▸ beyond⟩,
        fun s same => ?_⟩
      rw [read s same, showTrees, work, dumped, all, List.map_nil, List.append_nil]
      simp only [List.isEmpty_cons, Bool.false_eq_true, ↓reduceIte, eq]
      rfl

theorem exists_runs (stack : Stack) (command : Command) (source : String) (whole : Bool) :
    ∃ body ending, Runs stack command source whole body ending := by
  cases command with
  | tokens => exact ⟨_, _, runs_tokens stack source whole⟩
  | trees =>
    obtain ⟨trees, p, run, wholes⟩ := exists_readTrees stack source whole
    obtain ⟨results, ending, runs⟩ := runs_trees run (printable stack wholes)
    exact ⟨_, ending, runs⟩

/-! ### What is seen of a run -/

theorem ending_run (stack : Stack) (s : Session) (source : String) (whole : Bool) :
    (s.run stack source whole).ending = .returned ∨
      (s.run stack source whole).ending = .fault (.unprintable .stackOverflow) ∧
        ∃ tree ∈ shownTrees stack source whole s.command, ¬tree.Fits stack := by
  obtain ⟨body, ending, runs⟩ := exists_runs stack s.command source whole
  rw [runs.run s rfl]
  exact runs.ends

theorem run_returned (s : Session) (h : Showable stack source whole s.command) :
    (s.run stack source whole).ending = .returned := by
  rcases s.ending_run stack source whole with returned | ⟨-, tree, member, beyond⟩
  · exact returned
  · exact absurd (h tree member) beyond

theorem session_run (stack : Stack) (s : Session) (source : String) (whole : Bool) :
    (s.run stack source whole).session =
      { s with hadError := s.hadError || !(messages stack source whole s.command).isEmpty } := by
  obtain ⟨body, ending, runs⟩ := exists_runs stack s.command source whole
  rw [runs.run s rfl]

theorem errors_run (stack : Stack) (s : Session) (source : String) (whole : Bool) :
    writtenTo .errors (s.run stack source whole).output =
      (listing source s.debug s.command ++ messages stack source whole s.command).map (· ++ "\n") := by
  obtain ⟨body, ending, runs⟩ := exists_runs stack s.command source whole
  simp [runs.run s rfl, runs.errors]

theorem prompts_run (stack : Stack) (s : Session) (source : String) (whole : Bool) :
    writtenTo .prompts (s.run stack source whole).output = [] := by
  obtain ⟨body, ending, runs⟩ := exists_runs stack s.command source whole
  simp [runs.run s rfl, runs.prompts]

theorem results_run {s s' : Session} (same : s.command = s'.command) (stack : Stack) (source : String) (whole : Bool) :
    writtenTo .results (s.run stack source whole).output = writtenTo .results (s'.run stack source whole).output := by
  obtain ⟨body, ending, runs⟩ := exists_runs stack s'.command source whole
  simp [runs.run s same, runs.run s' rfl]

/-- A run writes what it would write in another session that was made to show the same, and ends as it would there. -/
theorem run_alike {s s' : Session} (same : s.command = s'.command) (same' : s.debug = s'.debug) (stack : Stack)
    (source : String) (whole : Bool) :
    (s.run stack source whole).output = (s'.run stack source whole).output ∧
      (s.run stack source whole).ending = (s'.run stack source whole).ending := by
  obtain ⟨body, ending, runs⟩ := exists_runs stack s'.command source whole
  rw [runs.run s same, runs.run s' rfl, same']
  exact ⟨rfl, rfl⟩

theorem output_run (stack : Stack) (s : Session) (source : String) (whole : Bool) :
    (s.run stack source whole).output = ((fresh s.command s.debug).run stack source whole).output := by
  have same : s.command = (fresh s.command s.debug).command := rfl
  exact (run_alike same rfl stack source whole).1

/-- A file is run as a whole. Where the run returns, the file fails if there is an error after it. -/
theorem runFile_eq (stack : Stack) (s : Session) {content : List UInt8} {text : String}
    (h : Text.Utf8.decode content = .ok text) :
    s.runFile stack content = { s.run stack (Text.unified text) true with
      ending := if (s.run stack (Text.unified text) true).ending = .returned ∧
          (s.run stack (Text.unified text) true).session.hadError then .exit dataError
        else (s.run stack (Text.unified text) true).ending } := by
  rw [runFile, h]
  by_cases fails : (s.run stack (Text.unified text) true).ending = .returned ∧
      (s.run stack (Text.unified text) true).session.hadError
  · rw [if_pos fails]
    exact if_pos fails
  · rw [if_neg fails]
    exact if_neg fails

end Session

end ExprLang.Shell
