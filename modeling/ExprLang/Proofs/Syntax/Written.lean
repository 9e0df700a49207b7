import ExprLang.Proofs.Lexical.Spaced
import ExprLang.Proofs.Syntax.Lines

/-! # Trees written out

A tree whose operands are tight enough can be written down in infix order without further parentheses. `Proper` says
when that is so, by the levels of the nodes alone; `Written` gives the tokens, where a number may be spelled in every
way that has its value. The grammar derives the tree from these tokens (`Proper.derives`), and their text with a blank
between neighbours is scanned back to them. -/

namespace ExprLang

open ExprLang.Parser Lexical

/-- The place of a level, from the loosest to the tightest. -/
def Parser.Level.rank : Level → Nat
  | .equality => 0
  | .comparison => 1
  | .sum => 2
  | .product => 3
  | .unary => 4
  | .primary => 5

namespace Syntax

/-- The values that can be written down. -/
inductive Sayable : Literal → Prop
  | null : Sayable .null
  | bool (value : Bool) : Sayable (.bool value)
  | number {lexeme : String} {line : Int} {value : Binary64} (form : Number lexeme.toList)
    (read : Token.number ⟨.number, lexeme, line⟩ = .ok value) : Sayable (.number value)
  | text {value : String} (h : '"' ∉ value.toList) : Sayable (.text value)

/-- The tree has a node of the level at its root and respects precedence: a left operand is as tight as its operator or
    tighter, a right operand is tighter, and the operand of a sign is without binary operator. The lexemes of operators
    are those of their kinds. -/
inductive Proper : Level → Expr → Prop
  | literal {value : Literal} (h : Sayable value) : Proper .primary (.literal value)
  | grouping {level : Level} {inner : Expr} (h : Proper level inner) : Proper .primary (.grouping inner)
  | unary {level : Level} {operator : Token} {operand : Expr} (member : operator.kind ∈ signs)
    (spelled : WellFormed operator.kind operator.lexeme.toList) (h : Proper level operand)
    (tight : Level.unary.rank ≤ level.rank) : Proper .unary (.unary operator operand)
  | binary {level lefts rights : Level} {operator : Token} {left right : Expr}
    (member : operator.kind ∈ level.operators) (spelled : WellFormed operator.kind operator.lexeme.toList)
    (first : Proper lefts left) (second : Proper rights right) (tight : level.rank ≤ lefts.rank)
    (tighter : level.rank < rights.rank) : Proper level (.binary left operator right)

/-- The tokens of a tree in infix order. -/
inductive Written : Expr → List Token → Prop
  | literal {token : Token} {value : Literal} (h : Payload token value)
    (spelled : WellFormed token.kind token.lexeme.toList) : Written (.literal value) [token]
  | grouping {inner : Expr} {tokens : List Token} {line line' : Int} (h : Written inner tokens) :
    Written (.grouping inner) (⟨.leftParen, "(", line⟩ :: tokens ++ [⟨.rightParen, ")", line'⟩])
  | unary {operator : Token} {operand : Expr} {tokens : List Token} (h : Written operand tokens) :
    Written (.unary operator operand) (operator :: tokens)
  | binary {operator : Token} {left right : Expr} {lefts rights : List Token} (first : Written left lefts)
    (second : Written right rights) : Written (.binary left operator right) (lefts ++ operator :: rights)

/-! ### Tokens of proper trees -/

theorem Sayable.exists_token {value : Literal} (h : Sayable value) :
    ∃ token : Token, Payload token value ∧ WellFormed token.kind token.lexeme.toList := by
  cases h with
  | null => exact ⟨⟨.nullWord, "null", 1⟩, .nullWord rfl, .keyword (by decide)⟩
  | bool value =>
    cases value with
    | true => exact ⟨⟨.trueWord, "true", 1⟩, .trueWord rfl, .keyword (by decide)⟩
    | false => exact ⟨⟨.falseWord, "false", 1⟩, .falseWord rfl, .keyword (by decide)⟩
  | @number lexeme line _ form read => exact ⟨⟨.number, lexeme, line⟩, .number rfl read, .number form⟩
  | @text value inside =>
    have payload : Payload ⟨.string, value, 1⟩ (.text value) := .string rfl
    exact ⟨_, payload, .string inside⟩

variable {level : Level} {tree : Expr} {tokens : List Token}

theorem Proper.exists_written (h : Proper level tree) : ∃ tokens, Written tree tokens := by
  induction h with
  | literal sayable =>
    obtain ⟨token, payload, spelled⟩ := sayable.exists_token
    exact ⟨_, .literal payload spelled⟩
  | grouping _ ih =>
    obtain ⟨tokens, written⟩ := ih
    have around : Written _ (⟨.leftParen, "(", 1⟩ :: tokens ++ [⟨.rightParen, ")", 1⟩]) := .grouping written
    exact ⟨_, around⟩
  | unary _ _ _ _ ih =>
    obtain ⟨tokens, written⟩ := ih
    exact ⟨_, .unary written⟩
  | binary _ _ _ _ _ _ ih ih' =>
    obtain ⟨lefts, first⟩ := ih
    obtain ⟨rights, second⟩ := ih'
    exact ⟨_, .binary first second⟩

theorem Proper.wellFormed (h : Proper level tree) (written : Written tree tokens) :
    ∀ token ∈ tokens, WellFormed token.kind token.lexeme.toList := by
  induction h generalizing tokens with
  | literal =>
    cases written with
    | literal _ spelled => exact List.forall_mem_singleton.mpr spelled
  | grouping _ ih =>
    cases written with
    | grouping inside =>
      have opening : WellFormed .leftParen "(".toList := .symbol (by decide)
      have closing : WellFormed .rightParen ")".toList := .symbol (by decide)
      exact List.forall_mem_append.mpr
        ⟨List.forall_mem_cons.mpr ⟨opening, ih inside⟩, List.forall_mem_singleton.mpr closing⟩
  | unary _ spelled _ _ ih =>
    cases written with
    | unary inside => exact List.forall_mem_cons.mpr ⟨spelled, ih inside⟩
  | binary _ spelled _ _ _ _ ih ih' =>
    cases written with
    | binary first second =>
      exact List.forall_mem_append.mpr ⟨ih first, List.forall_mem_cons.mpr ⟨spelled, ih' second⟩⟩

/-! ### The grammar derives them -/

theorem rank_tighter (h : level ≠ .primary) : level.tighter.rank = level.rank + 1 := by
  cases level with
  | primary => exact absurd rfl h
  | equality | comparison | sum | product | unary => rfl

theorem eq_of_rank {level level' : Level} (h : level.rank = level'.rank) : level = level' := by
  cases level <;> cases level' <;> first | rfl | cases h

/-- What is an expression of a level is one of every looser level. -/
theorem Derives.looser (h : Derives level tokens tree) (n : Nat) : ∀ {loose : Level}, loose.rank + n = level.rank →
    Derives loose tokens tree := by
  -- `n` is the number of levels in between; each of them is passed by one `Derives.operand`.
  induction n with
  | zero =>
    intro loose same
    exact eq_of_rank same ▸ h
  | succ n ih =>
    intro loose lower
    have inner : loose ≠ .primary := by
      rintro rfl
      have highest : level.rank ≤ Level.primary.rank := by cases level <;> decide
      omega
    have closer : loose.tighter.rank + n = level.rank := by
      rw [rank_tighter inner]
      omega
    exact .operand inner (ih closer)

theorem Derives.of_rank_le {loose : Level} (h : Derives level tokens tree) (le : loose.rank ≤ level.rank) :
    Derives loose tokens tree := h.looser (level.rank - loose.rank) (by omega)

theorem Proper.derives (h : Proper level tree) (written : Written tree tokens) : Derives level tokens tree := by
  induction h generalizing tokens with
  | literal =>
    cases written with
    | literal payload => exact .leaf payload
  | grouping _ ih =>
    cases written with
    | grouping inside => exact .grouping rfl rfl ((ih inside).of_rank_le (Nat.zero_le _))
  | unary member _ _ tight ih =>
    cases written with
    | unary inside => exact .sign member ((ih inside).of_rank_le tight)
  | @binary level _ _ _ _ _ member _ _ _ tight tighter ih ih' =>
    cases written with
    | binary first second =>
      have inner : level ≠ .primary := ne_primary (List.ne_nil_of_mem member)
      refine .binary member ((ih first).of_rank_le tight) ((ih' second).of_rank_le ?_)
      rw [rank_tighter inner]
      exact tighter

/-! ### The text of tokens -/

/-- The sources of tokens with a blank between neighbours. -/
def spaced (tokens : List Token) : String := String.ofList ([' '].intercalate (tokens.map source))

theorem intercalate_sources (first : Token) : ∀ others : List Token,
    [' '].intercalate ((first :: others).map source) = layOut (([], first) :: others.map ([' '], ·))
  | [] => by simp [List.intercalate, layOut]
  | second :: others => by
    have rest := intercalate_sources second others
    have split : [' '].intercalate ((first :: second :: others).map source) =
        source first ++ [' '] ++ [' '].intercalate ((second :: others).map source) := by
      simp [List.intercalate]
    rw [split, rest, List.map_cons, layOut_cons, layOut_cons, layOut_cons]
    simp

/-- Well-formed tokens come back from their text, on the lines where they stand in it, and nothing is reported. -/
theorem tokenize_spaced (some : tokens ≠ [])
    (wellFormed : ∀ token ∈ tokens, WellFormed token.kind token.lexeme.toList) :
    (Scanner.tokenize (spaced tokens)).1.map Token.unplaced = tokens.map Token.unplaced ∧
      (Scanner.tokenize (spaced tokens)).2 = [] := by
  obtain ⟨first, others, rfl⟩ := List.exists_cons_of_ne_nil some
  have entries : ∀ entry ∈ ([], first) :: others.map (([' '] : List Char), ·),
      WellFormed entry.2.kind entry.2.lexeme.toList := by
    simpa using wellFormed
  have gaps : ∀ entry ∈ others.map (([' '] : List Char), ·), Separator entry.1 := by
    simpa using fun _ _ => separator_blank
  have start : Gap ([] : List Char) := .nil
  rw [spaced, intercalate_sources, tokenize_layOut entries (fun _ head => Option.some.inj head ▸ start) gaps]
  refine ⟨?_, rfl⟩
  rw [relined_map Token.unplaced fun _ _ => rfl]
  simp

end Syntax

end ExprLang
