import ExprLang.Parser.Recovery
import ExprLang.Proofs.Parser.Accepts

/-! # Attempts at expressions

A text is read in rounds. A round uses a semicolon, or it tries to read a statement and records what is wrong with it.
What comes of an expression that is tried is told by the grammar (`Tried`), and so is what comes of a statement
(`Stated`). Where the room ends in front of a token, the error stands at that token. Only where it ends inside a token
(`Tears`) is that token lost, and what is read behind it are no longer tokens of the text. Whether this ever happens is
a matter of the places at which an expression is tried (`Intact`). -/

namespace ExprLang.Parser

open Syntax

/-! ### Rules -/

/-- The tokens end where an expression of the level is too deep. -/
def EndsTooDeep (stack : Stack) (level : Level) (used : List Token) : Prop :=
  ∃ front before opener, used = front ++ before ++ [opener] ∧ TooDeep stack level stack.room before opener

theorem EndsTooDeep.behind {stack : Stack} {level : Level} {used : List Token} (h : EndsTooDeep stack level used)
    (others : List Token) : EndsTooDeep stack level (others ++ used) := by
  obtain ⟨front, before, opener, rfl, deep⟩ := h
  exact ⟨others ++ front, before, opener, by simp, deep⟩

/-- What becomes of work that reads expressions of a level: it makes something good of the tokens it used, or is refused
    at the next token, or has come to the end of the room. -/
inductive Attempt {α : Type} (stack : Stack) (level : Level) (good : List Token → α → Prop) (p : Parser) :
    EStateM.Result Failure Parser α → Prop
  | done {q : Parser} {used : List Token} {a : α} (moves : Moves p used q) (h : good used a) :
    Attempt stack level good p (.ok a q)
  | refused {q : Parser} {used : List Token} {complaint : Complaint} (moves : Moves p used q) :
    Attempt stack level good p (.error (.syntaxError ⟨q.upcoming, complaint⟩) q)
  | overflow {mid q : Parser} {used : List Token} {shortage : Scanner.Shortage} {needs : Scanner.Needs} {left : Nat}
    (moves : Moves p used mid) (deep : EndsTooDeep stack level used)
    (ended : pull needs left mid = .error (.stackOverflow shortage) q) :
    Attempt stack level good p (.error (.stackOverflow shortage) q)

theorem attempt_rule (stack : Stack) (level : Level) {p : Parser} (readable : p.Readable) :
    Attempt stack level (Derives level) p ((level.rule stack).run p) := by
  have outcome := level.rule_outcome stack readable
  generalize (level.rule stack).run p = result at outcome
  cases outcome with
  | read moves derives => exact .done moves derives
  | stuck moves => exact .refused moves
  | overflow moves deep ended =>
    obtain ⟨before, opener, rfl, tooDeep⟩ := deep.tooDeep stack.roomy
    exact .overflow moves ⟨[], before, opener, rfl, tooDeep⟩ ended

/-- Expressions of a level with operators of some kinds between them. -/
inductive Joined (operand : Level) (kinds : List Kind) : List Token → Expr → Prop
  | operand {tokens : List Token} {tree : Expr} (h : Derives operand tokens tree) : Joined operand kinds tokens tree
  | binary {operator : Token} {lefts rights : List Token} {left right : Expr} (h : operator.kind ∈ kinds)
    (first : Joined operand kinds lefts left) (second : Derives operand rights right) :
    Joined operand kinds (lefts ++ operator :: rights) (.binary left operator right)

theorem attempt_binary (stack : Stack) (operand : Level) (kinds : List Kind) {p : Parser} (readable : p.Readable) :
    Attempt stack operand (Joined operand kinds) p (binary stack operand kinds p) := by
  have loop : ∀ (n : Nat) {q : Parser} {lefts : List Token} {left : Expr}, q.unread.length < n → q.Readable →
      Moves p lefts q → Joined operand kinds lefts left →
      Attempt stack operand (Joined operand kinds) p ((operand.rule stack).continued kinds left q) := by
    intro n
    induction n with
    | zero => exact fun short => absurd short (Nat.not_lt_zero _)
    | succ n ih =>
      intro q lefts left short readable moves joined
      rcases Rule.continued_cases (operand.rule stack) kinds left q with
        ⟨operator, r, member, more, eq⟩ | ⟨r, -, more, eq⟩
      · have right := attempt_rule stack operand (more.readable readable)
        rw [eq]
        generalize read : (operand.rule stack).run r = result at right
        cases right with
        | done further derives =>
          rw [bind_of_ok read]
          have shorter := congrArg List.length ((more.trans further).unread_eq)
          simp only [List.length_append, List.length_singleton] at shorter
          exact ih (by omega) (further.readable (more.readable readable)) (moves.trans (more.trans further))
            (.binary member joined derives)
        | refused further =>
          rw [bind_of_error read]
          exact .refused (moves.trans (more.trans further))
        | overflow further deep ended =>
          rw [bind_of_error read]
          exact .overflow (moves.trans (more.trans further)) ((deep.behind _).behind _) ended
      · rw [eq]
        exact .done (moves.trans more) (by rwa [List.append_nil])
  have first := attempt_rule stack operand readable
  show Attempt stack operand _ p (((operand.rule stack).run >>= (operand.rule stack).continued kinds) p)
  generalize read : (operand.rule stack).run p = result at first
  cases first with
  | done moves derives =>
    rw [bind_of_ok read]
    exact loop _ (Nat.lt_succ_self _) (moves.readable readable) moves (.operand derives)
  | refused moves =>
    rw [bind_of_error read]
    exact .refused moves
  | overflow moves deep ended =>
    rw [bind_of_error read]
    exact .overflow moves deep ended

/-! ### Expressions of a text -/

/-- The work comes to the end of the room inside a token. -/
def Tears {α : Type} (work : Work α) (p : Parser) : Prop := ∃ q, work p = .error (.stackOverflow .inside) q

def torn {α : Type} : EStateM.Result Failure Parser α → Bool
  | .error (.stackOverflow .inside) _ => true
  | _ => false

theorem tears_iff {α : Type} {work : Work α} {p : Parser} : Tears work p ↔ torn (work p) = true := by
  constructor
  · rintro ⟨q, ended⟩
    rw [ended]
    rfl
  · intro h
    unfold torn at h
    split at h
    · next q ended => exact ⟨q, ended⟩
    · cases h

instance {α : Type} (work : Work α) (p : Parser) : Decidable (Tears work p) := decidable_of_iff _ tears_iff.symm

theorem bounded_of_tears {α : Type} {work : Work α} {p : Parser} (tears : Tears work p) :
    ∃ error q, error.complaint = .nestedTooDeeply ∧ bounded work p = .error (.syntaxError error) q := by
  obtain ⟨after, ended⟩ := tears
  obtain ⟨q, -, failed⟩ := fail_cases (α := α) .nestedTooDeeply after
  exact ⟨_, q, rfl, by rw [bounded, ended]; exact failed⟩

/-- What comes of trying to read an expression where the end of the room is a syntax error. -/
inductive Tried (stack : Stack) (p : Parser) : EStateM.Result Failure Parser Expr → Prop
  | read {q : Parser} {used : List Token} {tree : Expr} (moves : Moves p used q) (derives : Derives .equality used tree)
    (fits : tree.frames stack + stack.needs.gap ≤ stack.room) (stops : Level.equality.Stops q.unread) :
    Tried stack p (.ok tree q)
  | stuck {q : Parser} {used : List Token} {complaint : Complaint} (moves : Moves p used q)
    (stuck : Stuck .equality used q.ahead complaint) :
    Tried stack p (.error (.syntaxError ⟨q.upcoming, complaint⟩) q)
  | tooDeep {q : Parser} {before : List Token} {opener : Token} (moves : Moves p (before ++ [opener]) q)
    (deep : TooDeep stack .equality stack.room before opener) :
    Tried stack p (.error (.syntaxError ⟨q.upcoming, .nestedTooDeeply⟩) q)
  | torn {mid after q : Parser} {before : List Token} {opener : Token} {left : Nat}
    (moves : Moves p (before ++ [opener]) mid) (deep : TooDeep stack .equality stack.room before opener)
    (ended : pull stack.needs left mid = .error (.stackOverflow .inside) after) (look : Moves after [] q)
    (tears : Tears (expression stack).run p) :
    Tried stack p (.error (.syntaxError ⟨q.upcoming, .nestedTooDeeply⟩) q)

theorem tried_expression (stack : Stack) {p : Parser} (readable : p.Readable) :
    Tried stack p (bounded (expression stack).run p) := by
  have outcome : Outcome stack .equality stack.room p ((expression stack).run p) :=
    Level.rule_outcome stack .equality readable
  rw [bounded]
  generalize run : (expression stack).run p = result at outcome
  cases outcome with
  | read moves derives fits stops => exact .read moves derives fits stops
  | stuck moves stuck => exact .stuck moves stuck
  | @overflow mid after used shortage left moves deep ended =>
    obtain ⟨before, opener, rfl, tooDeep⟩ := deep.tooDeep stack.roomy
    cases shortage with
    | before =>
      -- The token that there was no room for is still there, so the parser might not have looked for it at all.
      obtain ⟨q, look, failed⟩ := fail_cases (α := Expr) .nestedTooDeeply mid
      rw [← fail_eq_of_peek (peek_of_pull_before ended)] at failed
      have through := moves.trans look
      rw [List.append_nil] at through
      show Tried stack p (fail .nestedTooDeeply after)
      rw [failed]
      exact .tooDeep through tooDeep
    | inside =>
      obtain ⟨q, look, failed⟩ := fail_cases (α := Expr) .nestedTooDeeply after
      show Tried stack p (fail .nestedTooDeeply after)
      rw [failed]
      exact .torn moves tooDeep ended look ⟨after, run⟩

/-- What comes of trying to read a statement. -/
inductive Stated (stack : Stack) (p : Parser) : EStateM.Result Failure Parser Expr → Prop
  | read {q : Parser} {used ending : List Token} {tree : Expr} (moves : Moves p (used ++ ending) q)
    (derives : Derives .equality used tree) (fits : tree.frames stack + stack.needs.gap ≤ stack.room)
    (ends : ending = [] ∧ q.unread = [] ∨ ∃ stop, ending = [stop] ∧ stop.kind = .semicolon) :
    Stated stack p (.ok tree q)
  | interrupted {q : Parser} {used tokens : List Token} {token : Token} {tree : Expr} (moves : Moves p used q)
    (derives : Derives .equality used tree) (next : q.unread = token :: tokens) (other : token.kind ≠ .semicolon)
    (stops : token.kind ∉ Level.equality.absorbed) :
    Stated stack p (.error (.syntaxError ⟨token, .expectSemicolon⟩) q)
  | refused {error : SyntaxError} {q : Parser} (tried : Tried stack p (.error (.syntaxError error) q)) :
    Stated stack p (.error (.syntaxError error) q)

/-- Behind an expression that is read its statement ends, or another token is in the way. -/
theorem statement_of_read {stack : Stack} {p q : Parser} {tree : Expr}
    (read : bounded (expression stack).run p = .ok tree q) :
    (∃ ending r, Moves q ending r ∧ (ending = [] ∧ r.unread = [] ∨ ∃ stop, ending = [stop] ∧ stop.kind = .semicolon) ∧
      statement stack p = .ok tree r) ∨
      ∃ token tokens r, Moves q [] r ∧ r.unread = token :: tokens ∧ token.kind ≠ .semicolon ∧
        statement stack p = .error (.syntaxError ⟨token, .expectSemicolon⟩) r := by
  obtain ⟨r, look, atEnd⟩ := atEnd_cases q
  rw [statement, bind_of_ok read, bind_of_ok (modifyGet_eq atEnd)]
  cases next : q.unread with
  | nil => exact .inl ⟨[], r, look, .inl ⟨rfl, look.unread_same ▸ next⟩, rfl⟩
  | cons token tokens =>
    rw [List.isEmpty_cons, if_neg Bool.false_ne_true]
    rcases consume_cases .semicolon .expectSemicolon r with ⟨stop, last, closes, more, done⟩ |
        ⟨last, lacks, more, failed⟩
    · rw [bind_of_ok done]
      exact .inl ⟨[stop], last, look.trans more, .inr ⟨stop, rfl, closes⟩, rfl⟩
    · have same : last.unread = token :: tokens := (look.trans more).unread_same ▸ next
      have named : last.upcoming = token := by rw [Parser.upcoming, same]; rfl
      rw [bind_of_error failed, named]
      exact .inr ⟨token, tokens, last, look.trans more, same, lacks token (by rw [same]; rfl), rfl⟩

theorem stated_statement (stack : Stack) {p : Parser} (readable : p.Readable) :
    Stated stack p (statement stack p) := by
  have tried := tried_expression stack readable
  generalize run : bounded (expression stack).run p = result at tried
  cases tried with
  | read moves derives fits stops =>
    rcases statement_of_read run with ⟨ending, r, more, ends, eq⟩ | ⟨token, tokens, r, look, next, other, eq⟩
    · rw [eq]
      exact .read (moves.trans more) derives fits ends
    · rw [look.unread_same, next] at stops
      rw [eq]
      exact .interrupted (by simpa using moves.trans look) derives next other (Level.stops_cons.mp stops)
  | stuck moves stuck =>
    rw [statement, bind_of_error run]
    exact .refused (.stuck moves stuck)
  | tooDeep moves deep =>
    rw [statement, bind_of_error run]
    exact .refused (.tooDeep moves deep)
  | torn moves deep ended look tears =>
    rw [statement, bind_of_error run]
    exact .refused (.torn moves deep ended look tears)

/-- A statement is read, or it is recovered from. -/
theorem recovering_cases (stack : Stack) {p : Parser} (readable : p.Readable) :
    (∃ tree q, Stated stack p (.ok tree q) ∧ recovering (statement stack) p = .ok (some tree) q) ∨
      ∃ error q, Stated stack p (.error (.syntaxError error) q) ∧
        recovering (statement stack) p = .ok none (q.record error).synchronize := by
  have stated := stated_statement stack readable
  rw [recovering]
  generalize statement stack p = result at stated
  cases stated with
  | read moves derives fits ends => exact .inl ⟨_, _, .read moves derives fits ends, rfl⟩
  | interrupted moves derives next other stops => exact .inr ⟨_, _, .interrupted moves derives next other stops, rfl⟩
  | refused tried => exact .inr ⟨_, _, .refused tried, rfl⟩

/-! ### Numbers ahead -/

/-- The scanner makes no number that could not be read. -/
theorem Readable.of_fresh {p : Parser} (fresh : p.lookahead = none) : p.Readable := by
  intro token member
  rw [unread, fresh] at member
  exact (Scanner.reading_drain p.scanner).exists_number token member

/-- The parser behind some work, whether this succeeded or failed. -/
def behind {α : Type} : EStateM.Result Failure Parser α → Parser
  | .ok _ q => q
  | .error _ q => q

section

variable {stack : Stack} {p : Parser} {result : EStateM.Result Failure Parser Expr}

theorem Tried.readable (h : Tried stack p result) (readable : p.Readable) : (behind result).Readable := by
  cases h with
  | read moves | stuck moves | tooDeep moves => exact moves.readable readable
  | torn _ _ ended look =>
    obtain ⟨fresh, t, -, rfl⟩ := of_pull_error ended
    exact look.readable (.of_fresh fresh)

theorem Tried.syntaxError {failure : Failure} {q : Parser} (h : Tried stack p (.error failure q)) :
    ∃ error, failure = .syntaxError error := by
  cases h with
  | stuck | tooDeep | torn => exact ⟨_, rfl⟩

theorem Stated.syntaxError {failure : Failure} {q : Parser} (h : Stated stack p (.error failure q)) :
    ∃ error, failure = .syntaxError error := by
  cases h with
  | interrupted | refused => exact ⟨_, rfl⟩

theorem Tried.errors_eq (h : Tried stack p result) : (behind result).errors = p.errors := by
  cases h with
  | read moves | stuck moves | tooDeep moves => exact moves.errors_eq
  | torn moves _ ended look =>
    obtain ⟨-, t, -, rfl⟩ := of_pull_error ended
    exact look.errors_eq.trans moves.errors_eq

theorem Stated.errors_eq (h : Stated stack p result) : (behind result).errors = p.errors := by
  cases h with
  | read moves | interrupted moves => exact moves.errors_eq
  | refused tried => exact tried.errors_eq

theorem Stated.readable (h : Stated stack p result) (readable : p.Readable) : (behind result).Readable := by
  cases h with
  | read moves | interrupted moves => exact moves.readable readable
  | refused tried => exact tried.readable readable

end

/-! ### Rounds -/

/-- One round of the loop over a text, and the tree that it adds. -/
inductive Round (stack : Stack) (p : Parser) : Option Expr → Parser → Prop
  | separator {q : Parser} {token : Token} (next : p.peek = (some token, q)) (closes : token.kind = .semicolon) :
    Round stack p none (q.shift token)
  | statement {q r : Parser} {token : Token} {tree : Option Expr} (next : p.peek = (some token, q))
    (other : token.kind ≠ .semicolon) (read : recovering (statement stack) q = .ok tree r) : Round stack p tree r

/-- Rounds one after another, and the trees that they add. -/
inductive Rounds (stack : Stack) : Parser → List Expr → Parser → Prop
  | refl (p : Parser) : Rounds stack p [] p
  | round {p q r : Parser} {tree : Option Expr} {trees : List Expr} (first : Round stack p tree q)
    (rest : Rounds stack q trees r) : Rounds stack p (tree.toList ++ trees) r

section

variable {stack : Stack} {p q : Parser}

theorem Round.unique {tree tree' : Option Expr} {q' : Parser} (h : Round stack p tree q) (h' : Round stack p tree' q') :
    tree = tree' ∧ q = q' := by
  cases h with
  | separator next closes =>
    cases h' with
    | separator next' =>
      rw [next] at next'
      cases next'
      exact ⟨rfl, rfl⟩
    | statement next' other =>
      rw [next] at next'
      cases next'
      exact absurd closes other
  | statement next other read =>
    cases h' with
    | separator next' closes =>
      rw [next] at next'
      cases next'
      exact absurd closes other
    | statement next' other read' =>
      rw [next] at next'
      cases next'
      rw [read] at read'
      cases read'
      exact ⟨rfl, rfl⟩

/-- A whole text is read in rounds until no token is left. -/
theorem parseAll_eq_ok_iff {trees : List Expr} :
    parseAll stack p = .ok trees q ↔ ∃ last, Rounds stack p trees last ∧ last.peek = (none, q) := by
  constructor
  · intro h
    fun_induction parseAll stack p generalizing trees q with
    | case1 p q next =>
      cases h
      exact ⟨p, .refl p, next⟩
    | case2 p token mid next lt le closes ih =>
      obtain ⟨last, rounds, ended⟩ := ih h
      exact ⟨last, .round (.separator next closes) rounds, ended⟩
    | case3 | case4 => cases h
    | case5 p token mid next lt le other tree r ran less trees last rest ih =>
      cases h
      obtain ⟨last, rounds, ended⟩ := ih rest
      exact ⟨last, .round (.statement next other ran) rounds, ended⟩
  · rintro ⟨last, rounds, ended⟩
    induction rounds with
    | refl p =>
      rw [parseAll]
      split
      · next eq => rw [ended] at eq; cases eq; rfl
      · next eq => rw [ended] at eq; cases eq
    | @round p mid last tree trees first _ ih =>
      have behind := ih ended
      cases first with
      | separator next closes =>
        rw [parseAll]
        split
        · next eq => rw [next] at eq; cases eq
        · next eq =>
          rw [next] at eq
          cases eq
          rw [if_pos closes]
          exact behind
      | statement next other read =>
        rw [parseAll]
        split
        · next eq => rw [next] at eq; cases eq
        · next eq =>
          rw [next] at eq
          cases eq
          rw [if_neg other]
          split
          · next failed => rw [read] at failed; cases failed
          · next ran =>
            rw [read] at ran
            cases ran
            rw [behind]

/-- `Tries stack p start`: reading all of a text, the parser tries to read an expression at `start`. -/
def Tries (stack : Stack) (p start : Parser) : Prop :=
  ∃ before mid token, Rounds stack p before mid ∧ mid.peek = (some token, start) ∧ token.kind ≠ .semicolon

/-- Reading all of the text, no expression comes to the end of the room inside a token. -/
def Intact (stack : Stack) (p : Parser) : Prop := ∀ start, Tries stack p start → ¬Tears (expression stack).run start

theorem Intact.here {token : Token} (h : Intact stack p) (next : p.peek = (some token, q))
    (other : token.kind ≠ .semicolon) : ¬Tears (expression stack).run q := h q ⟨[], p, token, .refl p, next, other⟩

theorem Intact.behind {tree : Option Expr} (h : Intact stack p) (first : Round stack p tree q) : Intact stack q := by
  rintro start ⟨before, mid, token, rounds, next, other⟩
  exact h start ⟨_, mid, token, .round first rounds, next, other⟩

end

end ExprLang.Parser
