import ExprLang.Proofs.Lexical.Illegal
import ExprLang.Proofs.Parser.Verdict
import ExprLang.Proofs.Shell.Run
import ExprLang.Proofs.Syntax.Written

/-! # The two commands

A text can be shown as tokens or as trees. Unless the room ends inside one, the parser takes all tokens of a text, so
what the scanner reports is reported under both commands, under the second one in front of the syntax errors. An illegal
token is in no expression, hence a file that fails under the first command fails under the second, if its trees can be
shown. What the second one refuses are the chunks that are no expression, and those that are too deep. -/

namespace ExprLang.Shell.Session

open ExprLang.Parser Lexical Syntax

variable {stack : Stack} {source : String} {trees : List Expr} {p : Parser}

/-! ### Messages of a whole text -/

theorem messages_tokens_ne_nil_iff (stack : Stack) (source : String) :
    messages stack source true .tokens ≠ [] ↔ ∃ token ∈ (Scanner.tokenize source).1, token.kind = .illegal := by
  rw [messages, Scanner.tokenize_snd, Ne, List.map_eq_nil_iff, (Scanner.reading_tokenize source).reports_nothing_iff]
  simp

theorem messages_parseAll (run : parseAll stack (.ofText source) = .ok trees p) :
    messages stack source true .trees = complaints p := by
  have read : readTrees stack true (.ofText source) = .ok trees p := run
  exact messages_trees read

theorem messages_intact (run : parseAll stack (.ofText source) = .ok trees p) (intact : Intact stack (.ofText source)) :
    messages stack source true .trees =
      messages stack source true .tokens ++ p.errors.toList.map SyntaxError.text := by
  rw [messages_parseAll run, complaints, diagnostics_of_parseAll intact run]
  rfl

theorem errors_ne_nil_of_illegal (run : parseAll stack (.ofText source) = .ok trees p)
    (h : ∃ token ∈ (Scanner.tokenize source).1, token.kind = .illegal) : p.errors.toList ≠ [] :=
  (recorded_iff run).mpr (.inl (exists_faulty_of_illegal h))

/-- There is something to report exactly if there is a syntax error. -/
theorem messages_trees_ne_nil_iff (run : parseAll stack (.ofText source) = .ok trees p) :
    messages stack source true .trees ≠ [] ↔ p.errors.toList ≠ [] := by
  constructor
  · intro some none
    have shallow : Shallow p.errors.toList := by
      rw [none]
      exact .nil
    have intact := intact_of_shallow (.of_fresh rfl) run shallow
    -- Without a syntax error there is no illegal token, and the scanner has nothing to report.
    have clean : messages stack source true .tokens = [] := Classical.byContradiction fun reported =>
      errors_ne_nil_of_illegal run ((messages_tokens_ne_nil_iff stack source).mp reported) none
    rw [messages_intact run intact, clean, none] at some
    exact some rfl
  · rw [messages_parseAll run, complaints]
    exact fun some => List.append_ne_nil_of_right_ne_nil _ fun none => some (List.map_eq_nil_iff.mp none)

/-! ### Files -/

theorem runFile_fresh_exits_iff (command : Command) (debug : Bool) {content : List UInt8} {text : String}
    (h : Text.Utf8.decode content = .ok text) (fits : Showable stack (Text.unified text) true command) :
    ((fresh command debug).runFile stack content).ending = .exit dataError ↔
      messages stack (Text.unified text) true command ≠ [] := by
  have returned := (fresh command debug).run_returned fits
  rw [runFile_eq stack _ h, returned, session_run]
  by_cases nothing : messages stack (Text.unified text) true command = []
  · exact iff_of_false (by simp [fresh, nothing]) (not_not_intro nothing)
  · exact iff_of_true (by simp [fresh, nothing]) nothing

theorem showable_tokens (stack : Stack) (source : String) : Showable stack source true .tokens := List.forall_mem_nil _

theorem showable_trees (run : parseAll stack (.ofText source) = .ok trees p) (fits : ∀ tree ∈ trees, tree.Fits stack) :
    Showable stack source true .trees := by
  have read : readTrees stack true (.ofText source) = .ok trees p := run
  rw [Showable, shownTrees_trees read]
  exact fits

theorem runFile_tokens_exits_iff (debug : Bool) {content : List UInt8} {text : String}
    (h : Text.Utf8.decode content = .ok text) : ((fresh .tokens debug).runFile stack content).ending = .exit dataError ↔
      ∃ token ∈ (Scanner.tokenize (Text.unified text)).1, token.kind = .illegal :=
  (runFile_fresh_exits_iff .tokens debug h (showable_tokens stack _)).trans (messages_tokens_ne_nil_iff stack _)

theorem runFile_trees_exits_iff (debug : Bool) {content : List UInt8} {text : String}
    (h : Text.Utf8.decode content = .ok text) (run : parseAll stack (.ofText (Text.unified text)) = .ok trees p)
    (fits : ∀ tree ∈ trees, tree.Fits stack) :
    ((fresh .trees debug).runFile stack content).ending = .exit dataError ↔ p.errors.toList ≠ [] :=
  (runFile_fresh_exits_iff .trees debug h (showable_trees run fits)).trans (messages_trees_ne_nil_iff run)

/-! ### Agreement -/

/-- The two commands agree on a text with these trees and these syntax errors. -/
structure Agree (stack : Stack) (source : String) (trees : List Expr) (errors : List SyntaxError) : Prop where
  shown (debug : Bool) : writtenTo .results ((fresh .tokens debug).run stack source true).output =
    (Scanner.tokenize source).1.map fun token => token.text ++ "\n"
  reported (debug : Bool) : writtenTo .errors ((fresh .tokens debug).run stack source true).output =
    (Scanner.tokenize source).2.map fun diagnostic => diagnostic.text ++ "\n"
  /-- Without the list of tokens, the command for trees reports the same and the syntax errors behind it. -/
  behind (intact : Intact stack (.ofText source)) :
    writtenTo .errors ((fresh .trees false).run stack source true).output =
      writtenTo .errors ((fresh .tokens false).run stack source true).output ++
        errors.map fun error => error.text ++ "\n"
  some : writtenTo .errors ((fresh .tokens false).run stack source true).output ≠ [] → errors ≠ []
  /-- The list of tokens comes first, and it is what the command for tokens shows. -/
  listed : writtenTo .errors ((fresh .trees true).run stack source true).output =
    "Lexed tokens:\n" :: writtenTo .results ((fresh .tokens false).run stack source true).output ++
      writtenTo .errors ((fresh .trees false).run stack source true).output
  results : writtenTo .results ((fresh .trees true).run stack source true).output =
    writtenTo .results ((fresh .trees false).run stack source true).output
  hadError : ((fresh .trees true).run stack source true).session.hadError =
    ((fresh .trees false).run stack source true).session.hadError
  ending : ((fresh .trees true).run stack source true).ending = ((fresh .trees false).run stack source true).ending
  tokens_returned (debug : Bool) : ((fresh .tokens debug).run stack source true).ending = .returned
  trees_returned (fits : ∀ tree ∈ trees, tree.Fits stack) (debug : Bool) :
    ((fresh .trees debug).run stack source true).ending = .returned
  illegal (debug : Bool) {content : List UInt8} {text : String} (h : Text.Utf8.decode content = .ok text)
    (h' : Text.unified text = source) : ((fresh .tokens debug).runFile stack content).ending = .exit 65 ↔
      ∃ token ∈ (Scanner.tokenize source).1, token.kind = .illegal
  refused (intact : Intact stack (.ofText source)) (fits : ∀ tree ∈ trees, tree.Fits stack) (debug : Bool)
    {content : List UInt8} {text : String} (h : Text.Utf8.decode content = .ok text) (h' : Text.unified text = source) :
    ((fresh .trees debug).runFile stack content).ending = .exit 65 ↔
      ∃ chunk ∈ chunksOf (Scanner.tokenize source).1, chunk.Faulty ∨ chunk.Deep stack errors
  /-- An expression for which there is no room makes its chunk too deep. -/
  beyond (intact : Intact stack (.ofText source)) {chunk : Chunk} {tree : Expr}
    (member : chunk ∈ chunksOf (Scanner.tokenize source).1) (derives : Derives .equality chunk.tokens tree)
    (short : stack.room < tree.frames stack + stack.needs.gap) : chunk.Deep stack errors
  /-- What is reported of a chunk that is too deep. -/
  named {error : SyntaxError} (member : error ∈ errors) (deep : error.complaint = .nestedTooDeeply) : ∃ place,
    "[line " ++ toString error.token.line ++ "] Error " ++ place ++ ": Expression nested too deeply.\n" ∈
      writtenTo .errors ((fresh .trees false).run stack source true).output
  both (fits : ∀ tree ∈ trees, tree.Fits stack) (debug debug' : Bool) {content : List UInt8} {text : String}
    (h : Text.Utf8.decode content = .ok text) (h' : Text.unified text = source) :
    ((fresh .tokens debug).runFile stack content).ending = .exit 65 →
      ((fresh .trees debug').runFile stack content).ending = .exit 65

theorem results_tokens (stack : Stack) (s : Session) (tokens : s.command = .tokens) (source : String) (whole : Bool) :
    writtenTo .results (s.run stack source whole).output =
      (Scanner.tokenize source).1.map fun token => token.text ++ "\n" := by
  have other : Channel.errors ≠ .results := by simp
  have nothing : listing source s.debug .tokens = [] := rfl
  rw [(runs_tokens stack source whole).run s tokens, nothing, List.map_nil, List.nil_append, writtenTo_append,
    writtenTo_lines, writtenTo_lines_of_ne other, List.append_nil, List.map_map]
  rfl

theorem errors_fresh (stack : Stack) (command : Command) (debug : Bool) (source : String) :
    writtenTo .errors ((fresh command debug).run stack source true).output =
      (listing source debug command ++ messages stack source true command).map (· ++ "\n") :=
  errors_run stack _ source true

theorem text_of_deep {error : SyntaxError} (deep : error.complaint = .nestedTooDeeply) : ∃ place,
    error.text = "[line " ++ toString error.token.line ++ "] Error " ++ place ++ ": Expression nested too deeply." := by
  have text : ∃ place, error.text =
      "[line " ++ toString error.token.line ++ "] Error " ++ place ++ ": " ++ error.complaint.message := ⟨_, rfl⟩
  obtain ⟨place, text⟩ := text
  refine ⟨place, ?_⟩
  have whole : ": " ++ Complaint.nestedTooDeeply.message = ": Expression nested too deeply." := by decide
  rw [text, deep, String.append_assoc, whole]

/-- The two commands agree on every text. Of a text both report what the scanner does, and the one for trees reports the
    syntax errors behind that; the list of tokens that may come in front is what the one for tokens shows. A file fails
    under the one if it has an illegal token, under the other if it has a chunk that is refused. -/
theorem commands_agree (stack : Stack) (source : String) : ∃ trees p,
    parseAll stack (.ofText source) = .ok trees p ∧ Agree stack source trees p.errors.toList := by
  obtain ⟨trees, p, run⟩ := exists_parseAll stack (Readable.of_fresh (p := .ofText source) rfl)
  have same : (fresh .trees true).command = (fresh .trees false).command := rfl
  have reported (debug : Bool) : writtenTo .errors ((fresh .tokens debug).run stack source true).output =
      (messages stack source true .tokens).map (· ++ "\n") := errors_fresh stack .tokens debug source
  have plain : writtenTo .errors ((fresh .trees false).run stack source true).output =
      (messages stack source true .trees).map (· ++ "\n") := errors_fresh stack .trees false source
  refine ⟨trees, p, run, {
    shown := fun debug => results_tokens stack _ rfl source true
    reported := fun debug => ?_
    behind := fun intact => ?_
    some := ?_
    listed := ?_
    results := results_run same stack source true
    hadError := ?_
    ending := ?_
    tokens_returned := fun debug => run_returned _ (showable_tokens stack source)
    trees_returned := fun fits debug => run_returned _ (showable_trees run fits)
    illegal := fun debug _ _ h h' => ?_
    refused := fun intact fits debug _ _ h h' => ?_
    beyond := fun intact _ _ member derives short => ?_
    named := fun member deep => ?_
    both := fun fits debug debug' _ _ h h' exits => ?_ }⟩
  · rw [reported, messages, List.map_map]
    rfl
  · rw [plain, reported, messages_intact run intact, List.map_append, List.map_map (f := SyntaxError.text)]
    rfl
  · rw [reported, Ne, List.map_eq_nil_iff]
    exact fun some => errors_ne_nil_of_illegal run ((messages_tokens_ne_nil_iff stack source).mp some)
  · rw [errors_fresh, List.map_append, plain, results_tokens stack _ rfl]
    show (_ :: List.map _ (List.map _ _)) ++ _ = _
    rw [List.map_map]
    rfl
  · rw [session_run, session_run]
    rfl
  · obtain ⟨body, ending, runs⟩ := exists_runs stack .trees source true
    rw [runs.run _ rfl, runs.run _ rfl]
  · subst h'
    exact runFile_tokens_exits_iff debug h
  · subst h'
    have reads := parseAll_reads run intact
    refine ((runFile_trees_exits_iff debug h run fits).trans reads.errors_ne_nil_iff).trans ?_
    constructor
    · rintro (⟨chunk, member, faulty⟩ | deep)
      · exact ⟨chunk, member, .inl faulty⟩
      · obtain ⟨chunk, member, deep⟩ := reads.deep deep
        exact ⟨chunk, member, .inr deep⟩
    · rintro ⟨chunk, member, faulty | deep⟩
      · exact .inl ⟨chunk, member, faulty⟩
      · exact .inr deep.not_shallow
  · refine (parseAll_reads run intact).deep_of_derives member (fun tree' derives' => ?_) derives
    rwa [chunk_unique member tree' _ derives' derives]
  · obtain ⟨place, text⟩ := text_of_deep deep
    refine ⟨place, ?_⟩
    rw [plain, messages_parseAll run, complaints, List.map_append]
    refine List.mem_append_right _ (List.mem_map.mpr ⟨_, List.mem_map_of_mem member, ?_⟩)
    rw [text, String.append_assoc]
    rfl
  · subst h'
    have illegal := (runFile_tokens_exits_iff debug h).mp exits
    exact (runFile_trees_exits_iff debug' h run fits).mpr (errors_ne_nil_of_illegal run illegal)

theorem commands_agree_stray : ((fresh .tokens true).runFile .standard [0x31, 0x20, 0x40]).ending = .exit 65 ∧
    ((fresh .trees false).runFile .standard [0x31, 0x20, 0x40]).ending = .exit 65 := by
  have decoded : Text.Utf8.decode [0x31, 0x20, 0x40] = .ok "1 @" := Text.Utf8.decode_ascii (by simp)
  have plain : Text.unified "1 @" = "1 @" := Text.unified_eq_self (by decide)
  obtain ⟨trees, p, run, agree⟩ := commands_agree .standard "1 @"
  have seen : outcome (parseAll .standard) "1 @" = some ([], [⟨⟨.illegal, "@", 1⟩, .expectSemicolon⟩]) := by
    decide +kernel
  rw [outcome, run] at seen
  obtain ⟨rfl, -⟩ := Prod.mk.inj (Option.some.inj seen)
  have none : ∀ tree ∈ ([] : List Expr), tree.Fits .standard := List.forall_mem_nil _
  have stray : ⟨.illegal, "@", 1⟩ ∈ (Scanner.tokenize "1 @").1 := by decide +kernel
  have exits := (agree.illegal true decoded plain).mpr ⟨_, stray, rfl⟩
  exact ⟨exits, agree.both none true false decoded plain exits⟩

/-! ### Expressions that are too deep -/

/-- A number in parentheses. -/
def nested : Nat → Expr
  | 0 => .literal (.number (.ofDecimal ⟨1, 0⟩))
  | n + 1 => .grouping (nested n)

def nestedTokens : Nat → List Token
  | 0 => [⟨.number, "1", 1⟩]
  | n + 1 => ⟨.leftParen, "(", 1⟩ :: nestedTokens n ++ [⟨.rightParen, ")", 1⟩]

theorem derives_nested (n : Nat) : Derives .primary (nestedTokens n) (nested n) := by
  induction n with
  | zero => exact .leaf (.number rfl rfl)
  | succ n ih => exact .grouping rfl rfl (ih.of_rank_le (Nat.zero_le _))

def nestedOctets (n : Nat) : List UInt8 := List.replicate n 0x28 ++ [0x31] ++ List.replicate n 0x29

/-- A file that holds nothing but an expression fails if this is too deep, and the depth is what is reported. -/
theorem runFile_too_deep : ∃ text, Text.Utf8.decode (nestedOctets 100) = .ok text ∧
    ((fresh .trees false).runFile .standard (nestedOctets 100)).output =
      [⟨.errors, "[line 1] Error at '(': Expression nested too deeply.\n"⟩] ∧
    ¬(((fresh .trees false).runFile .standard (nestedOctets 100)).ending = .exit 65 ↔
      ∃ chunk ∈ chunksOf (Scanner.tokenize (Text.unified text)).1,
        chunk.tokens ≠ [] ∧ ∀ tree, ¬Derives .equality chunk.tokens tree) := by
  have decoded : Text.Utf8.decode (nestedOctets 100) =
      .ok (String.ofList ((nestedOctets 100).map fun octet => Char.ofNat octet.toNat)) := by decide +kernel
  have chunks : chunksOf (Scanner.tokenize (Text.unified
      (String.ofList ((nestedOctets 100).map fun octet => Char.ofNat octet.toNat)))).1 =
      [⟨nestedTokens 100, ⟨.endOfInput, "", 1⟩⟩] := by decide +kernel
  have ran : (fresh .trees false).runFile .standard (nestedOctets 100) =
      { output := [⟨.errors, "[line 1] Error at '(': Expression nested too deeply.\n"⟩],
        session := { command := .trees, hadError := true }, ending := .exit 65 } := by decide +kernel
  refine ⟨_, decoded, congrArg Turn.output ran, fun same => ?_⟩
  have exits := congrArg Turn.ending ran
  obtain ⟨chunk, member, -, none⟩ := same.mp exits
  rw [chunks] at member
  obtain rfl := List.mem_singleton.mp member
  exact none _ ((derives_nested 100).of_rank_le (Nat.zero_le _))

end ExprLang.Shell.Session
