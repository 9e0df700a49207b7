import ExprLang.Parser.Grammar

/-! # The grammar as a relation

`Derives level tokens tree` says, without a parser, that the tokens are an expression of the level and which tree it
has. An operator of a binary level has on its left an expression of the same level and on its right one of the next
tighter level, hence it groups to the left. `Level.Stops` says what may stand behind an expression that is read as far
as it goes. -/

namespace ExprLang

open ExprLang.Parser

/-- What the signs and parentheses around the innermost part take of a stack. -/
def Expr.frames (stack : Stack) : Expr → Nat
  | .literal _ | .bare => 0
  | .grouping inner => inner.frames stack + stack.paren
  | .unary _ operand => operand.frames stack + stack.sign
  | .binary left _ right => max (left.frames stack) (right.frames stack)

/-- The kinds of tokens that are expressions by themselves. -/
def Syntax.leaves : List Kind := [.falseWord, .trueWord, .nullWord, .number, .string]

/-- The operators that stand in front of their operand. -/
def Syntax.signs : List Kind := [.minus, .exclamation]

namespace Parser.Level

open Syntax

/-- The level of the operands. -/
def tighter : Level → Level
  | .equality => .comparison
  | .comparison => .sum
  | .sum => .product
  | .product => .unary
  | .unary | .primary => .primary

def operators : Level → List Kind
  | .equality => [.notEqual, .equal]
  | .comparison => [.greater, .less, .greaterEqual, .lessEqual]
  | .sum => [.plus, .minus]
  | .product => [.asterisk, .slash]
  | .unary | .primary => []

/-- The binary operators of a level and of all tighter ones. -/
def absorbed : Level → List Kind
  | .equality => equality.operators ++ comparison.operators ++ sum.operators ++ product.operators
  | .comparison => comparison.operators ++ sum.operators ++ product.operators
  | .sum => sum.operators ++ product.operators
  | .product => product.operators
  | .unary | .primary => []

/-- The kinds with which an expression of a level begins. -/
def starters : Level → List Kind
  | .primary => leaves ++ [.leftParen]
  | _ => signs ++ (leaves ++ [.leftParen])

/-- No operator with which an expression of the level could go on is in front. -/
def Stops (level : Level) (tokens : List Token) : Prop :=
  ∀ token, tokens.head? = some token → token.kind ∉ level.absorbed

end Parser.Level

namespace Syntax

/-- A token that is an expression by itself, and its value. -/
inductive Payload (token : Token) : Literal → Prop
  | falseWord (h : token.kind = .falseWord) : Payload token (.bool false)
  | trueWord (h : token.kind = .trueWord) : Payload token (.bool true)
  | nullWord (h : token.kind = .nullWord) : Payload token .null
  | number {value : Binary64} (h : token.kind = .number) (read : token.number = .ok value) :
    Payload token (.number value)
  | string (h : token.kind = .string) : Payload token (.text token.lexeme)

/-- The tokens are an expression of the level, and the tree is theirs. -/
inductive Derives : Level → List Token → Expr → Prop
  | leaf {token : Token} {value : Literal} (h : Payload token value) : Derives .primary [token] (.literal value)
  | grouping {opening closing : Token} {tokens : List Token} {inner : Expr} (h : opening.kind = .leftParen)
    (h' : closing.kind = .rightParen) (body : Derives .equality tokens inner) :
    Derives .primary (opening :: tokens ++ [closing]) (.grouping inner)
  | sign {operator : Token} {tokens : List Token} {operand : Expr} (h : operator.kind ∈ signs)
    (body : Derives .unary tokens operand) : Derives .unary (operator :: tokens) (.unary operator operand)
  | operand {level : Level} {tokens : List Token} {tree : Expr} (h : level ≠ .primary)
    (body : Derives level.tighter tokens tree) : Derives level tokens tree
  | binary {level : Level} {operator : Token} {lefts rights : List Token} {left right : Expr}
    (h : operator.kind ∈ level.operators) (first : Derives level lefts left)
    (second : Derives level.tighter rights right) :
    Derives level (lefts ++ operator :: rights) (.binary left operator right)

/-- `Stuck level used next complaint`: an expression of the level may begin with the tokens used, and nothing of it can
    stand where the next token is. The cases are those of `Derives`, broken off at that token. -/
inductive Stuck : Level → List Token → Option Kind → Complaint → Prop
  | missing {level : Level} {next : Option Kind} (h : ∀ kind, next = some kind → kind ∉ level.starters) :
    Stuck level [] next .expectExpression
  | unclosed {opening : Token} {used : List Token} {inner : Expr} {next : Option Kind} (h : opening.kind = .leftParen)
    (body : Derives .equality used inner)
    (stop : ∀ kind, next = some kind → kind ≠ .rightParen ∧ kind ∉ Level.equality.absorbed) :
    Stuck .primary (opening :: used) next .expectClosingParen
  | inside {opening : Token} {used : List Token} {next : Option Kind} {complaint : Complaint}
    (h : opening.kind = .leftParen) (body : Stuck .equality used next complaint) :
    Stuck .primary (opening :: used) next complaint
  | sign {operator : Token} {used : List Token} {next : Option Kind} {complaint : Complaint} (h : operator.kind ∈ signs)
    (body : Stuck .unary used next complaint) : Stuck .unary (operator :: used) next complaint
  | unsigned {used : List Token} {next : Option Kind} {complaint : Complaint} (h : used ≠ [])
    (body : Stuck .primary used next complaint) : Stuck .unary used next complaint
  | left {level : Level} {used : List Token} {next : Option Kind} {complaint : Complaint} (h : level.operators ≠ [])
    (body : Stuck level.tighter used next complaint) : Stuck level used next complaint
  | right {level : Level} {operator : Token} {lefts used : List Token} {left : Expr} {next : Option Kind}
    {complaint : Complaint} (h : operator.kind ∈ level.operators) (first : Derives level lefts left)
    (body : Stuck level.tighter used next complaint) : Stuck level (lefts ++ operator :: used) next complaint

/-- `Deep stack level room used`: an expression of the level may begin with the tokens used, and they leave so little of
    the room that the scanner may need more for the operand behind them. The cases are those of `Derives`, broken off in
    front of that operand. -/
inductive Deep (stack : Stack) : Level → Nat → List Token → Prop
  | here {room : Nat} (short : room < stack.needs.most) : Deep stack .unary room []
  | inside {opening : Token} {used : List Token} {room : Nat} (h : opening.kind = .leftParen)
    (enough : stack.needs.gap ≤ room) (body : Deep stack .equality (room - stack.paren) used) :
    Deep stack .primary room (opening :: used)
  | sign {operator : Token} {used : List Token} {room : Nat} (h : operator.kind ∈ signs)
    (enough : stack.needs.gap ≤ room) (body : Deep stack .unary (room - stack.sign) used) :
    Deep stack .unary room (operator :: used)
  | unsigned {used : List Token} {room : Nat} (body : Deep stack .primary room used) : Deep stack .unary room used
  | left {level : Level} {used : List Token} {room : Nat} (h : level.operators ≠ [])
    (body : Deep stack level.tighter room used) : Deep stack level room used
  | right {level : Level} {operator : Token} {lefts used : List Token} {left : Expr} {room : Nat}
    (h : operator.kind ∈ level.operators) (first : Derives level lefts left)
    (enough : left.frames stack + stack.needs.gap ≤ room) (body : Deep stack level.tighter room used) :
    Deep stack level room (lefts ++ operator :: used)

/-- The tokens are an expression of the level, read as far as it goes, and a rest. -/
structure Splits (level : Level) (tokens used : List Token) (tree : Expr) (rest : List Token) : Prop where
  tokens_eq : tokens = used ++ rest
  derives : Derives level used tree
  stops : level.Stops rest

end Syntax

/-! ### Levels -/

namespace Parser.Level

theorem absorbed_eq (level : Level) : level.absorbed = level.operators ++ level.tighter.absorbed := by
  cases level <;> rfl

theorem Stops.tighter {level : Level} {tokens : List Token} (h : level.Stops tokens) : level.tighter.Stops tokens := by
  intro token head member
  refine h token head ?_
  rw [absorbed_eq]
  exact List.mem_append_right _ member

theorem stops_nil (level : Level) : level.Stops [] := by
  intro token head
  cases head

/-- Nothing goes on with an expression of a level without binary operators. -/
theorem stops_of_absorbed_nil {level : Level} (h : level.absorbed = []) (tokens : List Token) : level.Stops tokens := by
  intro token _ member
  rw [h] at member
  cases member

theorem stops_cons {level : Level} {token : Token} {tokens : List Token} :
    level.Stops (token :: tokens) ↔ token.kind ∉ level.absorbed := by
  constructor
  · intro h
    exact h token rfl
  · intro h other head
    obtain rfl : token = other := Option.some.inj head
    exact h

theorem stops_of_mem_operators {level : Level} {token : Token} {tokens : List Token}
    (h : token.kind ∈ level.operators) :
    level.tighter.Stops (token :: tokens) := by
  rw [stops_cons]
  have disjoint : ∀ kind ∈ level.operators, kind ∉ level.tighter.absorbed := by cases level <;> decide
  exact disjoint _ h

end Parser.Level

namespace Syntax

theorem Derives.ne_nil {level : Level} {tokens : List Token} {tree : Expr} (h : Derives level tokens tree) :
    tokens ≠ [] := by
  induction h with
  | leaf | sign | grouping => exact List.cons_ne_nil _ _
  | operand _ _ ih => exact ih
  | binary => simp

theorem Payload.mem_leaves {token : Token} {value : Literal} (h : Payload token value) : token.kind ∈ leaves := by
  cases h with
  | falseWord k | trueWord k | nullWord k | number k | string k => rw [k]; decide

theorem Derives.head {level : Level} {tokens : List Token} {tree : Expr} (h : Derives level tokens tree) :
    ∃ token rest, tokens = token :: rest ∧ token.kind ∈ level.starters := by
  induction h with
  | leaf payload => exact ⟨_, [], rfl, List.mem_append_left _ payload.mem_leaves⟩
  | grouping opens => exact ⟨_, _, rfl, List.mem_append_right _ (List.mem_singleton.mpr opens)⟩
  | sign member => exact ⟨_, _, rfl, List.mem_append_left _ member⟩
  | @operand level _ _ lower _ ih =>
    obtain ⟨token, rest, rfl, member⟩ := ih
    refine ⟨token, rest, rfl, ?_⟩
    cases level with
    | primary => exact absurd rfl lower
    | unary => exact List.mem_append_right _ member
    | equality | comparison | sum | product => exact member
  | binary _ _ _ ih =>
    obtain ⟨token, rest, rfl, member⟩ := ih
    exact ⟨token, _, rfl, member⟩

theorem leaf?_eq_ok_iff {token : Token} {value : Literal} :
    Rule.leaf? token = some (.ok value) ↔ Payload token value := by
  constructor
  · intro h
    unfold Rule.leaf? at h
    split at h
    · next k => cases h; exact .falseWord k
    · next k => cases h; exact .trueWord k
    · next k => cases h; exact .nullWord k
    · next k =>
      cases read : token.number with
      | error fault => rw [read] at h; cases h
      | ok number =>
        rw [read] at h
        cases h
        exact .number k read
    · next k => cases h; exact .string k
    · cases h
  · intro h
    cases h with
    | falseWord k | trueWord k | nullWord k | string k => simp [Rule.leaf?, k]
    | number k read => simp [Rule.leaf?, k, read, Except.map]

theorem of_leaf?_eq_error {token : Token} {fault : Token.NotANumber} (h : Rule.leaf? token = some (.error fault)) :
    token.kind = .number ∧ token.number = .error fault := by
  unfold Rule.leaf? at h
  split at h
  · cases h
  · cases h
  · cases h
  · next k =>
    refine ⟨k, ?_⟩
    cases read : token.number with
    | error other =>
      rw [read] at h
      cases h
      rfl
    | ok value =>
      rw [read] at h
      cases h
  · cases h
  · cases h

theorem leaf?_eq_none_iff {token : Token} :
    Rule.leaf? token = none ↔ token.kind ∉ leaves := by
  unfold Rule.leaf? leaves
  cases token.kind <;> simp

end Syntax

end ExprLang
