import ExprLang.Parser.Grammar

/-! Reading whole texts. A syntax error is recorded, and what follows it is dropped up to the end of the statement or
    to a keyword that opens one; no error stops the reading of the statements behind it. -/

namespace ExprLang.Parser

/-- Drops tokens until the one dropped last is a semicolon or the next opens a statement. -/
def skipStatement (p : Parser) : Parser :=
  match next : p.peek with
  | (none, q) => q
  | (some token, q) =>
    if q.current.kind = .semicolon ∨ token.kind ∈ Kind.statementOpeners then q
    else
      have := remaining_shift_lt next
      (q.shift token).skipStatement
termination_by p.remaining

/-- Drops one token, whatever it is, and the rest of its statement. -/
def synchronize (p : Parser) : Parser :=
  match p.peek with
  | (none, q) => q
  | (some token, q) => (q.shift token).skipStatement

theorem remaining_skipStatement_le (p : Parser) : p.skipStatement.remaining ≤ p.remaining := by
  fun_induction skipStatement p with
  | case1 p q next => exact remaining_le_of_peek next
  | case2 p token q next => exact remaining_le_of_peek next
  | case3 p token q next stop lt ih => omega

/-- Something is dropped if anything is left. -/
theorem remaining_synchronize (p : Parser) : p.synchronize.remaining = 0 ∨ p.synchronize.remaining < p.remaining := by
  unfold synchronize
  split
  · next q next => exact .inl (remaining_of_peek_eq_none next)
  · next token q next =>
    have := remaining_shift_lt next
    have := remaining_skipStatement_le (q.shift token)
    exact .inr (by omega)

/-- Work whose syntax error, if there is one, is recorded and recovered from. -/
def recovering {α : Type} (work : Work α) : Work (Option α) := fun p =>
  match work p with
  | .ok a q => .ok (some a) q
  | .error (.syntaxError error) q => .ok none (q.record error).synchronize
  | .error failure q => .error failure q

theorem remaining_recovering {α : Type} {work : Work α} (h : Uses 1 work) {p q : Parser} {a : Option α}
    (eq : recovering work p = .ok a q) : q.remaining = 0 ∨ q.remaining < p.remaining := by
  unfold recovering at eq
  split at eq
  · next a mid ran =>
    cases eq
    exact .inr (h.1 _ _ _ ran)
  · next error mid ran =>
    cases eq
    have le := h.2 _ _ _ ran
    have := remaining_synchronize (mid.record error)
    simp only [remaining_record] at this
    omega
  · cases eq

/-- Work for which the end of the room is a syntax error at the next token. There is room again to look at that. -/
def bounded {α : Type} (work : Work α) : Work α := fun p =>
  match work p with
  | .error (.stackOverflow _) q => fail .nestedTooDeeply q
  | result => result

theorem uses_bounded {α : Type} {n : Nat} {work : Work α} (h : Uses n work) : Uses n (bounded work) := by
  constructor
  · intro p a q eq
    unfold bounded at eq
    split at eq
    · cases eq
    · exact h.1 _ _ _ eq
  · intro p failure q eq
    unfold bounded at eq
    split at eq
    · next short =>
      have := (Uses.fail (n := n) (α := α) .nestedTooDeeply).2 _ _ _ eq
      exact Nat.le_trans this (h.2 _ _ _ short)
    · exact h.2 _ _ _ eq

/-- One expression from the front of the text, or the placeholder if there is none. -/
def parse (stack : Stack) : Work Expr := do
  if ← modifyGet atEnd then return .illegal
  else return (← recovering (bounded (expression stack).run)).getD .illegal

/-- An expression and the semicolon behind it, which the last one may lack. -/
def statement (stack : Stack) : Work Expr := do
  let tree ← bounded (expression stack).run
  if ← modifyGet atEnd then return tree
  else
    let _ ← consume .semicolon .expectSemicolon
    return tree

theorem uses_statement (stack : Stack) : Uses 1 (statement stack) := by
  refine (uses_bounded (expression stack).uses).bind fun tree => ?_
  refine Uses.atEnd.bind fun ended => ?_
  cases ended with
  | true => exact Uses.pure tree
  | false => exact (Uses.consume .semicolon .expectSemicolon).zero.bind fun _ => Uses.pure tree

/-- Every expression of the text. Those with a syntax error are left out. -/
def parseAll (stack : Stack) : Work (List Expr) := fun p =>
  match next : p.peek with
  | (none, q) => .ok [] q
  | (some token, q) =>
    have := remaining_shift_lt next
    have := remaining_le_of_peek next
    if token.kind = .semicolon then parseAll stack (q.shift token)
    else
      match ran : recovering (statement stack) q with
      | .error failure r => .error failure r
      | .ok tree r =>
        have := remaining_recovering (uses_statement stack) ran
        match parseAll stack r with
        | .error failure last => .error failure last
        | .ok trees last => .ok (tree.toList ++ trees) last
termination_by p => p.remaining
decreasing_by all_goals omega

end ExprLang.Parser
