import ExprLang.Proofs.Lexical.Tokens
import ExprLang.Proofs.Parser.Rules
import ExprLang.Proofs.Syntax.Failure

/-! # What the rules accept

Completeness: an expression that the grammar derives, with nothing behind it that could go on with it, is read to its
end. At a binary level the rule reads the left operand first and then resumes in its loop, so the induction over a
derivation says where a rule resumes (`Derives.run`) and not that it returns. With soundness this fixes the rules on
every list of tokens. -/

namespace ExprLang

namespace Parser

/-- What a rule of a level goes on with behind an expression of the level. -/
def Level.resume (stack : Stack) (room : Nat) : Level → Expr → Work Expr
  | .unary, left | .primary, left => pure left
  | level, left => (level.tighter.ruleWithin stack room).continued level.operators left

namespace Level

variable {stack : Stack} {level : Level} {room : Nat} {p : Parser}

theorem ruleWithin_run (h : level.operators ≠ []) : (level.ruleWithin stack room).run =
    (level.tighter.ruleWithin stack room).run >>= level.resume stack room := by
  cases level with
  | unary | primary => exact absurd rfl h
  | equality | comparison | sum | product => rfl

theorem resume_eq (h : level.operators ≠ []) (left : Expr) :
    level.resume stack room left = (level.tighter.ruleWithin stack room).continued level.operators left := by
  cases level with
  | unary | primary => exact absurd rfl h
  | equality | comparison | sum | product => rfl

theorem resume_of_stops (left : Expr) (stops : level.Stops p.unread) :
    ∃ q, level.resume stack room left p = .ok left q ∧ q.unread = p.unread := by
  by_cases levels : level.operators = []
  · cases level with
    | unary | primary => exact ⟨p, rfl, rfl⟩
    | equality | comparison | sum | product => cases levels
  · rw [resume_eq levels]
    rcases Rule.continued_cases (level.tighter.ruleWithin stack room) level.operators left p with
      ⟨operator, q, member, moves, -⟩ | ⟨q, -, moves, eq⟩
    · refine absurd ?_ (stops operator (by rw [moves.unread_eq]; rfl))
      rw [absorbed_eq]
      exact List.mem_append_left _ member
    · exact ⟨q, eq, moves.unread_eq.symm⟩

theorem resume_of_operator {operator : Token} {tokens : List Token} (left : Expr)
    (h : operator.kind ∈ level.operators) (eq : p.unread = operator :: tokens) :
    ∃ q, q.unread = tokens ∧ level.resume stack room left p = ((level.tighter.ruleWithin stack room).run >>= fun right =>
      level.resume stack room (.binary left operator right)) q := by
  have levels : level.operators ≠ [] := List.ne_nil_of_mem h
  simp only [resume_eq levels]
  rcases Rule.continued_cases (level.tighter.ruleWithin stack room) level.operators left p with
    ⟨first, q, -, moves, run⟩ | ⟨q, lacks, moves, -⟩
  · obtain ⟨rfl, rest⟩ := moves.of_one eq
    exact ⟨q, rest.symm, run⟩
  · exact absurd h (lacks.not_first moves eq)

end Level

end Parser

open ExprLang.Parser Syntax

/-- Behind an expression that the grammar derives its rule resumes, if there is room for the expression and no operator
    of a tighter level follows. -/
theorem Syntax.Derives.run {stack : Stack} {level : Level} {tokens : List Token} {tree : Expr}
    (h : Derives level tokens tree) : ∀ {room : Nat} {p : Parser} {rest : List Token},
      tree.frames stack + stack.needs.most ≤ room → p.unread = tokens ++ rest → level.tighter.Stops rest →
      ∃ q, (level.ruleWithin stack room).run p = level.resume stack room tree q ∧ q.unread = rest := by
  have positive : 0 < stack.needs.most := Nat.lt_of_lt_of_le stack.needs.gap_pos stack.needs.gap_le_most
  induction h with
  | @leaf token value payload =>
    intro room p rest _ eq _
    have found := leaf?_eq_ok_iff.mpr payload
    rcases Rule.primary_cases (Rule.unary stack (room - stack.paren)) p with ⟨first, read, q, leaf, moves, run⟩ |
        ⟨opening, q, opens, moves, -⟩ | ⟨q, lacks, moves, -⟩
    · obtain ⟨rfl, same⟩ := moves.of_one eq
      rw [found] at leaf
      cases leaf
      exact ⟨q, run, same.symm⟩
    · obtain ⟨rfl, -⟩ := moves.of_one eq
      have := payload.mem_leaves
      rw [opens] at this
      exact absurd this (by decide)
    · exact absurd (List.mem_append_left _ payload.mem_leaves) (lacks.not_first moves eq)
  | @grouping opening closing tokens inner opens closes _ ih =>
    intro room p rest fits eq _
    simp only [Expr.frames] at fits
    rw [List.append_assoc, List.cons_append] at eq
    rcases Rule.primary_cases (Rule.unary stack (room - stack.paren)) p with ⟨first, value, q, leaf, moves, -⟩ |
        ⟨first, q, -, moves, -, run⟩ | ⟨q, lacks, moves, -⟩
    · obtain ⟨rfl, -⟩ := moves.of_one eq
      have none : Rule.leaf? opening = none := leaf?_eq_none_iff.mpr (by rw [opens]; decide)
      rw [none] at leaf
      cases leaf
    · obtain ⟨rfl, same⟩ := moves.of_one eq
      have stops : Level.equality.Stops ([closing] ++ rest) :=
        Level.stops_cons.mpr (by rw [closes]; decide)
      have inside : inner.frames stack + stack.needs.most ≤ room - stack.paren := by omega
      obtain ⟨r, body, behind⟩ := ih inside same.symm stops.tighter
      obtain ⟨last, resumed, same'⟩ := Level.resume_of_stops inner (behind ▸ stops)
      rw [behind] at same'
      have read : (Rule.unary stack (room - stack.paren)).equality.run q = .ok inner last := body.trans resumed
      rcases consume_cases .rightParen .expectClosingParen last with ⟨token, s, -, more, done⟩ | ⟨s, lacks, more, -⟩
      · obtain ⟨rfl, same''⟩ := List.cons.inj (same'.symm.trans more.unread_eq)
        refine ⟨s, ?_, same''.symm⟩
        show (Rule.unary stack (room - stack.paren)).primary.run p = _
        rw [run, Rule.enclosed, bind_of_ok read, bind_of_ok done]
        rfl
      · exact absurd closes (lacks.not_first more same')
    · have starts : opening.kind ∈ Level.primary.starters := by rw [opens]; decide
      exact absurd starts (lacks.not_first moves eq)
  | @sign operator tokens operand member _ ih =>
    intro room p rest fits eq _
    simp only [Expr.frames] at fits
    show ∃ q, (Rule.unary stack room).run p = _ ∧ _
    rw [Rule.unary_eq stack (by omega)]
    rcases Rule.signed_cases stack.needs room (fun opener => Rule.unary stack (room - stack.cost opener)) p with
      ⟨-, short, -⟩ | ⟨-, ⟨first, q, -, moves, -, run⟩ | ⟨q, lacks, moves, -⟩⟩
    · omega
    · obtain ⟨rfl, same⟩ := moves.of_one eq
      have inside : operand.frames stack + stack.needs.most ≤ room - stack.sign := by omega
      obtain ⟨r, body, behind⟩ := ih inside same.symm (Level.stops_of_absorbed_nil rfl _)
      exact ⟨r, run.trans (bind_of_ok body), behind⟩
    · exact absurd member (lacks.not_first moves eq)
  | @operand level tokens tree lower body ih =>
    intro room p rest fits eq stops
    by_cases levels : level.operators = []
    · cases level with
      | equality | comparison | sum | product => cases levels
      | primary => exact absurd rfl lower
      | unary =>
        obtain ⟨first, tail, rfl, starts⟩ := body.head
        show ∃ q, (Rule.unary stack room).run p = _ ∧ _
        rw [Rule.unary_eq stack (by omega)]
        rcases Rule.signed_cases stack.needs room (fun opener => Rule.unary stack (room - stack.cost opener)) p with
          ⟨-, short, -⟩ | ⟨-, ⟨sign, q, member, moves, -⟩ | ⟨q, lacks, moves, run⟩⟩
        · omega
        · obtain ⟨rfl, -⟩ := moves.of_one eq
          have disjoint : ∀ kind ∈ Level.primary.starters, kind ∉ signs := by decide
          exact absurd member (disjoint _ starts)
        · obtain ⟨r, body, behind⟩ := ih fits (moves.unread_eq.symm.trans eq) stops
          exact ⟨r, run.trans body, behind⟩
    · obtain ⟨q, body, behind⟩ := ih fits eq stops.tighter
      obtain ⟨r, resumed, same⟩ := Level.resume_of_stops tree (behind ▸ stops)
      refine ⟨r, ?_, same.trans behind⟩
      rw [Level.ruleWithin_run levels, bind_of_ok (body.trans resumed)]
  | @binary level operator lefts rights left right member _ _ ih ih' =>
    intro room p rest fits eq stops
    simp only [Expr.frames] at fits
    have fits_left : left.frames stack + stack.needs.most ≤ room := by omega
    have fits_right : right.frames stack + stack.needs.most ≤ room := by omega
    rw [List.append_assoc, List.cons_append] at eq
    obtain ⟨q, first, behind⟩ := ih fits_left eq (Level.stops_of_mem_operators member)
    obtain ⟨r, behind', resumed⟩ := Level.resume_of_operator left member behind
    obtain ⟨s, second, behind''⟩ := ih' fits_right behind' stops.tighter
    obtain ⟨t, done, same⟩ := Level.resume_of_stops right (behind'' ▸ stops)
    refine ⟨t, ?_, same.trans behind''⟩
    rw [first, resumed, bind_of_ok (second.trans done)]

/-- An expression that there is room for and that nothing behind it could go on with is read to its end. -/
theorem Syntax.Derives.read {stack : Stack} {level : Level} {tokens rest : List Token} {tree : Expr} {room : Nat}
    {p : Parser} (h : Derives level tokens tree) (fits : tree.frames stack + stack.needs.most ≤ room)
    (eq : p.unread = tokens ++ rest) (stops : level.Stops rest) :
    ∃ q, (level.ruleWithin stack room).run p = .ok tree q ∧ q.unread = rest := by
  obtain ⟨q, run, behind⟩ := h.run fits eq stops.tighter
  obtain ⟨r, resumed, same⟩ := Level.resume_of_stops tree (behind ▸ stops)
  exact ⟨r, run.trans resumed, same.trans behind⟩

/-- Tokens begin with an expression of a level, read as far as it goes, in at most one way. -/
theorem Syntax.Splits.unique {level : Level} {p : Parser} {used used' rest rest' : List Token} {tree tree' : Expr}
    (h : Splits level p.unread used tree rest) (h' : Splits level p.unread used' tree' rest') :
    used = used' ∧ tree = tree' ∧ rest = rest' := by
  -- Both are read where there is room for either, hence by the same run.
  obtain ⟨room, fits, fits'⟩ : ∃ room, tree.frames .standard + Stack.standard.needs.most ≤ room ∧
      tree'.frames .standard + Stack.standard.needs.most ≤ room :=
    ⟨max _ _, Nat.le_max_left _ _, Nat.le_max_right _ _⟩
  obtain ⟨q, run, behind⟩ := h.derives.read fits h.tokens_eq h.stops
  obtain ⟨q', run', behind'⟩ := h'.derives.read fits' h'.tokens_eq h'.stops
  rw [run] at run'
  cases run'
  obtain rfl : rest = rest' := behind.symm.trans behind'
  refine ⟨List.append_cancel_right (h.tokens_eq.symm.trans h'.tokens_eq), rfl, rfl⟩

namespace Parser

/-- An expression is read to its end, however deep, unless the room ends in it. -/
theorem read_of_splits (stack : Stack) {level : Level} {p : Parser} {used rest : List Token} {tree : Expr}
    (splits : Splits level p.unread used tree rest) :
    (∃ q, (level.rule stack).run p = .ok tree q ∧ q.unread = rest) ∨
      ∃ shortage q, (level.rule stack).run p = .error (.stackOverflow shortage) q := by
  have more : stack.room ≤ max stack.room (tree.frames stack + stack.needs.most) := Nat.le_max_left _ _
  rcases Level.ruleWithin_extends stack level more p with same | ended
  · obtain ⟨q, run, behind⟩ := splits.derives.read (Nat.le_max_right _ _) splits.tokens_eq splits.stops
    exact .inl ⟨q, same.trans run, behind⟩
  · exact .inr ended

theorem unread_ofText (text : String) : (ofText text).unread = (Scanner.tokenize text).1 := rfl

/-- Every place of a text is one that a parser can be at. -/
theorem exists_unread {text : String} {tokens : List Token} (h : tokens <:+ (Scanner.tokenize text).1) :
    ∃ p : Parser, p.unread = tokens := by
  obtain ⟨front, eq⟩ := h
  obtain ⟨scanner, rest⟩ := Scanner.exists_drain eq.symm
  exact ⟨{ scanner }, rest⟩

/-- At a place of a text all numbers ahead are the scanner's. -/
theorem readable_of_suffix {text : String} {p : Parser} (h : p.unread <:+ (Scanner.tokenize text).1) : p.Readable :=
  fun token member => (Scanner.reading_tokenize text).exists_number token (h.subset member)

/-- At every place of a text the rule of a level returns a tree and leaves a rest exactly if the grammar splits the
    tokens ahead into these two; without such a split it fails with a syntax error. Only where the tokens ahead are too
    deep does the room end, and where there is room for the tree it does not. The grammar splits the tokens ahead in at
    most one way. -/
theorem run_rule_iff (stack : Stack) (level : Level) {text : String} {p : Parser}
    (h : p.unread <:+ (Scanner.tokenize text).1) :
    (((∀ tree rest, (∃ q, (level.rule stack).run p = .ok tree q ∧ q.unread = rest) ↔
          ∃ used, Splits level p.unread used tree rest) ∧
        ((∀ used tree rest, ¬Splits level p.unread used tree rest) →
          ∃ error q, (level.rule stack).run p = .error (.syntaxError error) q)) ∨
      (∃ shortage q, (level.rule stack).run p = .error (.stackOverflow shortage) q) ∧
        ∃ before opener behind, p.unread = before ++ [opener] ++ behind ∧
          TooDeep stack level stack.room before opener) ∧
      (∀ used tree rest, Splits level p.unread used tree rest → tree.frames stack + stack.needs.most ≤ stack.room →
        ∃ q, (level.rule stack).run p = .ok tree q ∧ q.unread = rest) ∧
      ∀ used tree rest used' tree' rest', Splits level p.unread used tree rest →
        Splits level p.unread used' tree' rest' → used = used' ∧ tree = tree' ∧ rest = rest' := by
  refine ⟨?_, ?_, fun _ _ _ _ _ _ splits splits' => splits.unique splits'⟩
  · have outcome := Level.rule_outcome stack level (readable_of_suffix h)
    generalize run : (level.rule stack).run p = result at outcome
    cases outcome with
    | @read q used tree moves derives fits stops =>
      have splits : Splits level p.unread used tree q.unread := ⟨moves.unread_eq, derives, stops⟩
      refine .inl ⟨fun tree' rest => ⟨?_, ?_⟩, fun none => absurd splits (none _ _ _)⟩
      · rintro ⟨q', eq, rfl⟩
        cases eq
        exact ⟨used, splits⟩
      · rintro ⟨used', splits'⟩
        obtain ⟨-, rfl, rfl⟩ := splits.unique splits'
        exact ⟨q, rfl, rfl⟩
    | @stuck q used complaint moves stuck =>
      have none : ∀ used' tree rest, ¬Splits level p.unread used' tree rest := by
        intro used' tree rest splits
        rcases read_of_splits stack splits with ⟨q', eq, -⟩ | ⟨shortage, q', eq⟩
        · rw [run] at eq
          cases eq
        · rw [run] at eq
          cases eq
      refine .inl ⟨fun tree rest => ⟨?_, ?_⟩, fun _ => ⟨_, _, rfl⟩⟩
      · rintro ⟨q', eq, -⟩
        cases eq
      · rintro ⟨used', splits⟩
        exact absurd splits (none _ _ _)
    | @overflow mid q used shortage left moves deep ended =>
      obtain ⟨before, opener, rfl, tooDeep⟩ := deep.tooDeep stack.roomy
      exact .inr ⟨⟨shortage, q, rfl⟩, before, opener, mid.unread, moves.unread_eq, tooDeep⟩
  · intro used tree rest splits fits
    exact splits.derives.read fits splits.tokens_eq splits.stops

theorem run_comparison_in_equality : (ofText "1 - -2 == 3").unread <:+ (Scanner.tokenize "1 - -2 == 3").1 ∧
    ∃ tree q, (Level.comparison.rule .standard).run (ofText "1 - -2 == 3") = .ok tree q ∧
      q.unread = [⟨.equal, "==", 1⟩, ⟨.number, "3", 1⟩] := by
  have ahead : (ofText "1 - -2 == 3").unread <:+ (Scanner.tokenize "1 - -2 == 3").1 :=
    unread_ofText _ ▸ List.suffix_refl _
  refine ⟨ahead, ?_⟩
  have one : Derives .unary [⟨.number, "1", 1⟩] _ := .operand (by decide) (.leaf (.number rfl rfl))
  have two : Derives .unary [⟨.number, "2", 1⟩] _ := .operand (by decide) (.leaf (.number rfl rfl))
  have left : Derives .product [⟨.number, "1", 1⟩] _ := .operand (by decide) one
  have right : Derives .product [⟨.minus, "-", 1⟩, ⟨.number, "2", 1⟩] _ := .operand (by decide) (.sign (by decide) two)
  have difference : Derives .sum ([⟨.number, "1", 1⟩] ++ ⟨.minus, "-", 1⟩ :: [⟨.minus, "-", 1⟩, ⟨.number, "2", 1⟩]) _ :=
    .binary (by decide) (.operand (by decide) left) right
  refine ⟨_, (run_rule_iff .standard .comparison ahead).2.1 _ _ _ ⟨?_, .operand (by decide) difference, ?_⟩ ?_⟩
  · decide +kernel
  · exact Level.stops_cons.mpr (by decide)
  · decide

end Parser

end ExprLang
