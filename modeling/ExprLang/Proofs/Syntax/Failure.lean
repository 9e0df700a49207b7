import ExprLang.Proofs.Syntax.Outlook

/-! # Where an expression fails

`Begins` says that tokens can be completed to an expression, `Fails` that behind such tokens stands the first one that
cannot, and what could have stood there instead. Neither mentions a rule: the place and the complaint are a matter of
the grammar alone and there is at most one of each (`Fails.unique`). A rule that is stuck has found them
(`Stuck.fails`). Where the room ends instead, the tokens used begin expressions, and all of these are too deep
(`Deep.tooDeep`). -/

namespace ExprLang.Syntax

open ExprLang.Parser Outlook

/-- The tokens are the beginning of an expression of the level. -/
def Begins (level : Level) (tokens : List Token) : Prop := ∃ more tree, Derives level (tokens ++ more) tree

/-- The token is one of those that a complaint misses. -/
inductive Misses : Complaint → Token → Prop
  | expression {token : Token} {value : Literal} (h : Payload token value) : Misses .expectExpression token
  | closing {token : Token} (h : token.kind = .rightParen) : Misses .expectClosingParen token

/-- `Fails front offending complaint`: the tokens in front are the longest beginning of an expression. -/
inductive Fails : List Token → Token → Complaint → Prop
  | missing {front : List Token} {offending missed : Token} {complaint : Complaint} (h : Misses complaint missed)
    (begins : Begins .equality (front ++ [missed])) (dead : ¬Begins .equality (front ++ [offending])) :
    Fails front offending complaint
  | complete {front : List Token} {offending : Token} {tree : Expr} (derives : Derives .equality front tree)
    (dead : ¬Begins .equality (front ++ [offending])) : Fails front offending .expectSemicolon

/-- Some expression that begins with the tokens in front of the last one is within the room, and none that begins with
    all of them leaves the scanner what it may need. -/
structure TooDeep (stack : Stack) (level : Level) (room : Nat) (before : List Token) (opener : Token) : Prop where
  within : ∃ more tree, Derives level (before ++ more) tree ∧ tree.frames stack + stack.needs.gap ≤ room
  begins : Begins level (before ++ [opener])
  beyond : ∀ more tree, Derives level (before ++ [opener] ++ more) tree →
    room < tree.frames stack + stack.needs.most

/-! ### Beginnings -/

section

variable {level : Level} {tokens : List Token}

theorem Derives.begins {tree : Expr} (h : Derives level tokens tree) : Begins level tokens :=
  ⟨[], tree, by rwa [List.append_nil]⟩

theorem Begins.of_append {more : List Token} (h : Begins level (tokens ++ more)) : Begins level tokens := by
  obtain ⟨last, tree, derives⟩ := h
  rw [List.append_assoc] at derives
  exact ⟨more ++ last, tree, derives⟩

theorem Begins.operand (lower : level ≠ .primary) (h : Begins level.tighter tokens) : Begins level tokens := by
  obtain ⟨more, tree, derives⟩ := h
  exact ⟨more, tree, .operand lower derives⟩

theorem Begins.sign {operator : Token} (member : operator.kind ∈ signs) (h : Begins .unary tokens) :
    Begins .unary (operator :: tokens) := by
  obtain ⟨more, tree, derives⟩ := h
  exact ⟨more, .unary operator tree, .sign member derives⟩

/-- The end of an expression in parentheses. -/
def closer : Token := ⟨.rightParen, ")", 1⟩

theorem Begins.grouping {opening : Token} (opens : opening.kind = .leftParen) (h : Begins .equality tokens) :
    Begins .primary (opening :: tokens) := by
  obtain ⟨more, tree, derives⟩ := h
  refine ⟨more ++ [closer], .grouping tree, ?_⟩
  rw [← List.append_assoc]
  exact .grouping opens rfl derives

theorem Begins.right {operator : Token} {lefts : List Token} {left : Expr} (member : operator.kind ∈ level.operators)
    (first : Derives level lefts left) (h : Begins level.tighter tokens) : Begins level (lefts ++ operator :: tokens) := by
  obtain ⟨more, tree, derives⟩ := h
  refine ⟨more, .binary left operator tree, ?_⟩
  rw [List.append_assoc]
  exact .binary member first derives

/-- A primary expression is one of every level. -/
theorem Derives.ofPrimary {tree : Expr} (h : Derives .primary tokens tree) : ∀ level, Derives level tokens tree
  | .primary => h
  | .unary => .operand (by decide) h
  | .product => .operand (by decide) (.operand (by decide) h)
  | .sum => .operand (by decide) (.operand (by decide) (.operand (by decide) h))
  | .comparison => .operand (by decide) (.operand (by decide) (.operand (by decide) (.operand (by decide) h)))
  | .equality =>
    .operand (by decide) (.operand (by decide) (.operand (by decide) (.operand (by decide) (.operand (by decide) h))))

theorem begins_leaf {token : Token} {value : Literal} (payload : Payload token value) (level : Level) :
    Begins level [token] := ((Derives.leaf payload).ofPrimary level).begins

/-- The shortest expression there is. -/
theorem derives_null (level : Level) : Derives level [⟨.nullWord, "null", 1⟩] (.literal .null) :=
  (Derives.leaf (.nullWord rfl)).ofPrimary level

theorem begins_nil (level : Level) : Begins level [] := ⟨_, _, derives_null level⟩

end

/-! ### Where a rule is stuck -/

theorem ne_primary {level : Level} (h : level.operators ≠ []) : level ≠ .primary := by
  rintro rfl
  exact h rfl

/-- A token that the complaint misses could stand behind the tokens used. -/
theorem Stuck.begins_missed {level : Level} {used : List Token} {next : Option Kind} {complaint : Complaint}
    (h : Stuck level used next complaint) : ∃ token, Misses complaint token ∧ Begins level (used ++ [token]) := by
  induction h with
  | @missing level =>
    have null : Payload ⟨.nullWord, "null", 1⟩ .null := .nullWord rfl
    exact ⟨_, .expression null, begins_leaf null level⟩
  | unclosed opens body => exact ⟨closer, .closing rfl, (Derives.grouping opens rfl body).begins⟩
  | inside opens _ ih =>
    obtain ⟨token, misses, begins⟩ := ih
    exact ⟨token, misses, begins.grouping opens⟩
  | sign member _ ih =>
    obtain ⟨token, misses, begins⟩ := ih
    exact ⟨token, misses, begins.sign member⟩
  | unsigned _ _ ih =>
    obtain ⟨token, misses, begins⟩ := ih
    exact ⟨token, misses, .operand (by decide) begins⟩
  | left levels _ ih =>
    obtain ⟨token, misses, begins⟩ := ih
    exact ⟨token, misses, begins.operand (ne_primary levels)⟩
  | right member first _ ih =>
    obtain ⟨token, misses, begins⟩ := ih
    refine ⟨token, misses, ?_⟩
    rw [List.append_assoc]
    exact begins.right member first

theorem Begins.outlook {tokens : List Token} (h : Begins .equality tokens) (stack : Stack) :
    ∃ outlook, follow stack none tokens (.operand 0 [] 0) = some outlook := by
  obtain ⟨more, tree, derives⟩ := h
  have through : follow stack none (tokens ++ more) (.operand 0 [] 0) = some (.operator 0 []) :=
    derives.outlook (fun _ => rfl) (Nat.le_refl _) (allows_none _)
  rw [follow_append] at through
  cases front : follow stack none tokens (.operand 0 [] 0) with
  | some outlook => exact ⟨outlook, rfl⟩
  | none => rw [front] at through; cases through

/-- Tokens that leave no outlook begin no expression. -/
theorem not_begins (stack : Stack) {tokens : List Token} (h : follow stack none tokens (.operand 0 [] 0) = none) :
    ¬Begins .equality tokens := by
  intro begins
  obtain ⟨outlook, through⟩ := begins.outlook stack
  rw [h] at through
  cases through

/-- Where a rule for expressions is stuck, the grammar's expression fails. -/
theorem Stuck.fails {used : List Token} {token : Token} {complaint : Complaint}
    (h : Stuck .equality used (some token.kind) complaint) : Fails used token complaint := by
  obtain ⟨missed, misses, begins⟩ := h.begins_missed
  refine .missing misses begins (not_begins .standard ?_)
  exact h.dead rfl (fun same => absurd same (by decide)) (fun _ => rfl) (Nat.le_refl _)

/-- Behind a complete expression the first token that cannot go on with it makes it fail. -/
theorem Derives.fails {used : List Token} {tree : Expr} {token : Token} (h : Derives .equality used tree)
    (stop : token.kind ∉ Level.equality.absorbed) : Fails used token .expectSemicolon := by
  refine .complete h (not_begins .standard ?_)
  rw [follow_behind (h.outlook (fun _ => rfl) (Nat.le_refl _) (allows_none _)), follow_singleton]
  exact step_operator_eq_none stop (fun _ => rfl)

/-! ### Where the room ends -/

section

variable {stack : Stack} {level : Level} {room : Nat} {used : List Token}

theorem Deep.begins (h : Deep stack level room used) : Begins level used := by
  induction h with
  | here => exact begins_nil .unary
  | inside opens _ _ ih => exact ih.grouping opens
  | sign member _ _ ih => exact ih.sign member
  | unsigned _ ih => exact .operand (by decide) ih
  | left levels _ ih => exact ih.operand (ne_primary levels)
  | right member first _ _ ih => exact ih.right member first

/-- The operand that the last sign or parenthesis was read for is still within the room. -/
theorem Deep.within (h : Deep stack level room used) : used = [] ∧ room < stack.needs.most ∨
    ∃ before opener, used = before ++ [opener] ∧
      ∃ more tree, Derives level (before ++ more) tree ∧ tree.frames stack + stack.needs.gap ≤ room := by
  have null : ∀ {room : Nat}, stack.needs.gap ≤ room → ∀ level, ∃ more tree, Derives level ([] ++ more) tree ∧
      tree.frames stack + stack.needs.gap ≤ room := by
    intro room enough level
    refine ⟨_, _, derives_null level, ?_⟩
    rwa [Expr.frames, Nat.zero_add]
  have positive := stack.needs.gap_pos
  induction h with
  | here short => exact .inl ⟨rfl, short⟩
  | @inside opening _ _ opens enough _ ih =>
    rcases ih with ⟨rfl, -⟩ | ⟨before, opener, rfl, more, tree, derives, fits⟩
    · exact .inr ⟨[], opening, rfl, null enough _⟩
    · refine .inr ⟨opening :: before, opener, rfl, more ++ [closer], .grouping tree, ?_, ?_⟩
      · rw [← List.append_assoc]
        exact .grouping opens rfl derives
      · simp only [Expr.frames]
        omega
  | @sign operator _ _ member enough _ ih =>
    rcases ih with ⟨rfl, -⟩ | ⟨before, opener, rfl, more, tree, derives, fits⟩
    · exact .inr ⟨[], operator, rfl, null enough _⟩
    · refine .inr ⟨operator :: before, opener, rfl, more, .unary operator tree, .sign member derives, ?_⟩
      simp only [Expr.frames]
      omega
  | unsigned _ ih =>
    rcases ih with short | ⟨before, opener, eq, more, tree, derives, fits⟩
    · exact .inl short
    · exact .inr ⟨before, opener, eq, more, tree, .operand (by decide) derives, fits⟩
  | left levels _ ih =>
    rcases ih with short | ⟨before, opener, eq, more, tree, derives, fits⟩
    · exact .inl short
    · exact .inr ⟨before, opener, eq, more, tree, .operand (ne_primary levels) derives, fits⟩
  | @right _ operator lefts _ left _ member first enough _ ih =>
    rcases ih with ⟨rfl, -⟩ | ⟨before, opener, rfl, more, tree, derives, fits⟩
    · exact .inr ⟨lefts, operator, rfl, [], left, by rwa [List.append_nil], enough⟩
    · refine .inr ⟨lefts ++ operator :: before, opener, by simp, more, .binary left operator tree, ?_, ?_⟩
      · rw [List.append_assoc]
        exact .binary member first derives
      · simp only [Expr.frames]
        omega

/-- Where the room ends behind an expression's beginning, all expressions that begin so are too deep. -/
theorem Deep.tooDeep (h : Deep stack level room used) (roomy : stack.needs.most ≤ room) :
    ∃ before opener, used = before ++ [opener] ∧ TooDeep stack level room before opener := by
  rcases h.within with ⟨-, short⟩ | ⟨before, opener, rfl, within⟩
  · exact absurd roomy (Nat.not_le_of_lt short)
  · refine ⟨before, opener, rfl, within, h.begins, fun more tree derives => Nat.lt_of_not_le fun enough => ?_⟩
    -- Under the limit of this room the derivation leaves an outlook behind the tokens used, and there is none.
    have allows : Allows (some (room - stack.needs.most)) (0 + tree.frames stack) := by
      intro most eq
      cases eq
      omega
    have through : follow stack (some (room - stack.needs.most)) (before ++ [opener] ++ more) (.operand 0 [] 0) =
        some (.operator 0 []) := derives.outlook (fun _ => rfl) (Nat.le_refl _) allows
    have closed : enter (some (room - stack.needs.most)) 0 [] 0 >>=
        follow stack (some (room - stack.needs.most)) (before ++ [opener]) = none :=
      h.tooFar (fun _ => rfl) (Nat.le_refl _) (by omega)
    rw [enter_bind (allows.mono (Nat.le_add_right _ _))] at closed
    rw [follow_append, closed] at through
    cases through

end

/-! ### Failures are unique -/

/-- What is missing where the outlook has no next one. -/
def Outlook.complaint : Outlook → Complaint
  | .operand .. => .expectExpression
  | .operator _ [] => .expectSemicolon
  | .operator _ (_ :: _) => .expectClosingParen

theorem Misses.complaint_eq {complaint : Complaint} {token : Token} (h : Misses complaint token) {stack : Stack}
    {limit : Option Nat} {outlook behind : Outlook} (step : outlook.step stack limit token.kind = some behind) :
    outlook.complaint = complaint := by
  cases h with
  | expression payload =>
    cases outlook with
    | operand => rfl
    | operator =>
      have disjoint : ∀ kind ∈ leaves, kind ∉ Level.equality.absorbed ∧ kind ≠ .rightParen := by decide
      obtain ⟨operator, closing⟩ := disjoint _ payload.mem_leaves
      rw [step_operator_eq_none operator (fun closes => absurd closes closing)] at step
      cases step
  | closing closes =>
    cases outlook with
    | operand =>
      rw [step_operand_eq_none (by rw [closes]; decide)] at step
      cases step
    | operator _ outer =>
      cases outer with
      | nil =>
        rw [step_operator_eq_none (by rw [closes]; decide) (fun _ => rfl)] at step
        cases step
      | cons => rfl

/-- An expression fails behind its longest beginning, and what is expected there is what the complaint misses. -/
theorem Fails.cases {front : List Token} {offending : Token} {complaint : Complaint}
    (h : Fails front offending complaint) (stack : Stack) :
    Begins .equality front ∧ ¬Begins .equality (front ++ [offending]) ∧
      ∃ outlook, follow stack none front (.operand 0 [] 0) = some outlook ∧ outlook.complaint = complaint := by
  cases h with
  | missing misses begins dead =>
    refine ⟨begins.of_append, dead, ?_⟩
    obtain ⟨outlook, eq⟩ := begins.of_append.outlook stack
    obtain ⟨behind, through⟩ := begins.outlook stack
    rw [follow_behind eq, follow_singleton] at through
    exact ⟨outlook, eq, misses.complaint_eq through⟩
  | complete derives dead =>
    exact ⟨derives.begins, dead, .operator 0 [], derives.outlook (fun _ => rfl) (Nat.le_refl _) (allows_none _), rfl⟩

/-- The longest beginning is unique. -/
theorem front_unique {front front' behind behind' : List Token} {token token' : Token}
    (eq : front ++ token :: behind = front' ++ token' :: behind') (h : Begins .equality front)
    (dead : ¬Begins .equality (front ++ [token])) (h' : Begins .equality front')
    (dead' : ¬Begins .equality (front' ++ [token'])) : front = front' ∧ token = token' ∧ behind = behind' := by
  rcases List.append_eq_append_iff.mp eq with ⟨more, rfl, rest⟩ | ⟨more, rfl, rest⟩
  · cases more with
    | nil =>
      obtain ⟨rfl, rfl⟩ := List.cons.inj rest
      exact ⟨(List.append_nil _).symm, rfl, rfl⟩
    | cons first more =>
      obtain ⟨rfl, -⟩ := List.cons.inj rest
      rw [List.append_cons] at h'
      exact absurd h'.of_append dead
  · cases more with
    | nil =>
      obtain ⟨rfl, rfl⟩ := List.cons.inj rest
      exact ⟨List.append_nil _, rfl, rfl⟩
    | cons first more =>
      obtain ⟨rfl, -⟩ := List.cons.inj rest
      rw [List.append_cons] at h
      exact absurd h.of_append dead'

theorem Fails.unique {front front' behind behind' : List Token} {token token' : Token}
    {complaint complaint' : Complaint} (h : Fails front token complaint) (h' : Fails front' token' complaint')
    (eq : front ++ token :: behind = front' ++ token' :: behind') :
    token = token' ∧ behind = behind' ∧ complaint = complaint' := by
  obtain ⟨begins, dead, outlook, through, rfl⟩ := h.cases .standard
  obtain ⟨begins', dead', outlook', through', rfl⟩ := h'.cases .standard
  obtain ⟨rfl, rfl, rfl⟩ := front_unique eq begins dead begins' dead'
  rw [through] at through'
  cases through'
  exact ⟨rfl, rfl, rfl⟩

end ExprLang.Syntax
