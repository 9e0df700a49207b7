import ExprLang.Proofs.Syntax.Failure

/-! # A text as statements

Semicolons cut the tokens of a text into chunks. `Reads` says, by the grammar and the room on the stack alone, which
trees and which errors a chunk gives: a tree if it is an expression, otherwise an error where the expression fails or
becomes too deep, and one more at every keyword behind that place that opens a statement. A chunk that is not too deep
gives one result only (`Reads.unique`), and one that begins with such a keyword gives an error for every keyword in it
(`Reads.of_opener`): this is what a reader finds that goes on in the middle of a chunk. -/

namespace ExprLang.Syntax

open ExprLang.Parser

/-- Tokens without a semicolon, and the token that ends them. -/
structure Chunk where
  tokens : List Token
  stop : Token
  deriving DecidableEq, Repr

/-- The token for the end of a text with these tokens. -/
def endOf (tokens : List Token) : Token := ⟨.endOfInput, "", (tokens.getLast?.map (·.line)).getD 1⟩

/-- The tokens cut at every semicolon. The last chunk is ended by the end of the text, and left out if it is empty. -/
def cut (ending : Token) : List Token → List Chunk
  | [] => []
  | token :: tokens =>
    if token.kind = .semicolon then ⟨[], token⟩ :: cut ending tokens
    else
      match cut ending tokens with
      | [] => [⟨[token], ending⟩]
      | chunk :: chunks => ⟨token :: chunk.tokens, chunk.stop⟩ :: chunks

/-- The chunks of a text with these tokens. -/
def chunksOf (tokens : List Token) : List Chunk := cut (endOf tokens) tokens

/-- An error at each keyword that opens a statement. -/
def followUps (tokens : List Token) : List SyntaxError :=
  (tokens.filter (·.kind ∈ Kind.statementOpeners)).map (⟨·, .expectExpression⟩)

/-- None of the errors names the depth. -/
def Shallow (errors : List SyntaxError) : Prop := ∀ error ∈ errors, error.complaint ≠ .nestedTooDeeply

instance (errors : List SyntaxError) : Decidable (Shallow errors) :=
  inferInstanceAs (Decidable (∀ error ∈ errors, error.complaint ≠ .nestedTooDeeply))

/-- The trees and the errors of a chunk. -/
inductive Reads (stack : Stack) : Chunk → List Expr → List SyntaxError → Prop
  | empty {stop : Token} : Reads stack ⟨[], stop⟩ [] []
  | tree {tokens : List Token} {stop : Token} {tree : Expr} (derives : Derives .equality tokens tree)
    (fits : tree.frames stack + stack.needs.gap ≤ stack.room) : Reads stack ⟨tokens, stop⟩ [tree] []
  | failed {tokens front behind : List Token} {stop offending : Token} {complaint : Complaint} (some : tokens ≠ [])
    (none : ∀ tree, ¬Derives .equality tokens tree) (eq : tokens ++ [stop] = front ++ offending :: behind)
    (fails : Fails front offending complaint) :
    Reads stack ⟨tokens, stop⟩ [] (⟨offending, complaint⟩ :: followUps behind)
  | tooDeep {tokens before behind : List Token} {stop opener offending : Token}
    (eq : tokens ++ [stop] = before ++ [opener] ++ offending :: behind)
    (deep : TooDeep stack .equality stack.room before opener) :
    Reads stack ⟨tokens, stop⟩ [] (⟨offending, .nestedTooDeeply⟩ :: followUps behind)

/-- The trees and the errors of chunks one after another. -/
inductive ReadsAll (stack : Stack) : List Chunk → List Expr → List SyntaxError → Prop
  | nil : ReadsAll stack [] [] []
  | cons {chunk : Chunk} {chunks : List Chunk} {trees trees' : List Expr} {errors errors' : List SyntaxError}
    (first : Reads stack chunk trees errors) (rest : ReadsAll stack chunks trees' errors') :
    ReadsAll stack (chunk :: chunks) (trees ++ trees') (errors ++ errors')

/-! ### Cutting -/

/-- The first chunk of the tokens and what is left behind it. -/
inductive Cut (ending : Token) : List Token → Chunk → List Token → Prop
  | semicolon {tokens after : List Token} {stop : Token} (inner : ∀ token ∈ tokens, token.kind ≠ .semicolon)
    (h : stop.kind = .semicolon) : Cut ending (tokens ++ stop :: after) ⟨tokens, stop⟩ after
  | last {tokens : List Token} (inner : ∀ token ∈ tokens, token.kind ≠ .semicolon) :
    Cut ending tokens ⟨tokens, ending⟩ []

section

variable {ending stop token : Token} {tokens after : List Token} {chunk : Chunk}

theorem Cut.cons {inside : List Token} (other : token.kind ≠ .semicolon)
    (h : Cut ending tokens ⟨inside, stop⟩ after) : Cut ending (token :: tokens) ⟨token :: inside, stop⟩ after := by
  have all : ∀ {rest : List Token}, (∀ t ∈ rest, t.kind ≠ .semicolon) → ∀ t ∈ token :: rest, t.kind ≠ .semicolon :=
    fun inner => List.forall_mem_cons.mpr ⟨other, inner⟩
  cases h with
  | semicolon inner closes => exact .semicolon (all inner) closes
  | last inner => exact .last (all inner)

theorem Cut.of_nil (h : Cut ending [] chunk after) : chunk = ⟨[], ending⟩ ∧ after = [] := by
  generalize eq : [] = whole at h
  cases h with
  | semicolon => exact absurd eq.symm (List.append_ne_nil_of_right_ne_nil _ (List.cons_ne_nil _ _))
  | last =>
    subst eq
    exact ⟨rfl, rfl⟩

theorem Cut.uncons (other : token.kind ≠ .semicolon) (h : Cut ending (token :: tokens) chunk after) :
    ∃ inside stop, chunk = ⟨token :: inside, stop⟩ ∧ Cut ending tokens ⟨inside, stop⟩ after := by
  generalize eq : token :: tokens = whole at h
  cases h with
  | @semicolon front _ stop inner closes =>
    cases front with
    | nil =>
      obtain ⟨rfl, -⟩ := List.cons.inj eq
      exact absurd closes other
    | cons first front =>
      obtain ⟨rfl, rfl⟩ := List.cons.inj eq
      exact ⟨front, stop, rfl, .semicolon (List.forall_mem_cons.mp inner).2 closes⟩
  | last inner =>
    subst eq
    exact ⟨tokens, ending, rfl, .last (List.forall_mem_cons.mp inner).2⟩

theorem Cut.first (closes : token.kind = .semicolon) (h : Cut ending (token :: tokens) chunk after) :
    chunk = ⟨[], token⟩ ∧ after = tokens := by
  generalize eq : token :: tokens = whole at h
  cases h with
  | @semicolon front _ stop inner _ =>
    cases front with
    | nil =>
      obtain ⟨rfl, rfl⟩ := List.cons.inj eq
      exact ⟨rfl, rfl⟩
    | cons first front =>
      obtain ⟨rfl, -⟩ := List.cons.inj eq
      exact absurd closes (inner _ List.mem_cons_self)
  | last inner =>
    subst eq
    exact absurd closes (inner _ List.mem_cons_self)

theorem Cut.split {rest : List Token} : ∀ {used inside : List Token}, Cut ending (used ++ rest) ⟨inside, stop⟩ after →
    (∀ token ∈ used, token.kind ≠ .semicolon) →
    ∃ remaining, inside = used ++ remaining ∧ Cut ending rest ⟨remaining, stop⟩ after
  | [], inside, h, _ => ⟨inside, rfl, h⟩
  | token :: used, _, h, inner => by
    obtain ⟨other, inner⟩ := List.forall_mem_cons.mp inner
    obtain ⟨inside, _, eq, behind⟩ := h.uncons other
    cases eq
    obtain ⟨remaining, rfl, cuts⟩ := behind.split inner
    exact ⟨remaining, rfl, cuts⟩

theorem Cut.ofSemicolon (closes : token.kind = .semicolon) : Cut ending (token :: tokens) ⟨[], token⟩ tokens := by
  have none : ∀ inner ∈ ([] : List Token), inner.kind ≠ .semicolon := List.forall_mem_nil _
  exact .semicolon none closes

/-- The first chunk is the front of the tokens, and no expression goes on behind it. -/
theorem Cut.tail {inside : List Token} (h : Cut ending tokens ⟨inside, stop⟩ after) : ∃ tail, tokens = inside ++ tail ∧
    Level.equality.Stops tail ∧ (tail = [] ∧ after = [] ∨ tail = stop :: after ∧ stop.kind = .semicolon) := by
  cases h with
  | semicolon _ closes => exact ⟨_, rfl, Level.stops_cons.mpr (by rw [closes]; decide), .inr ⟨rfl, closes⟩⟩
  | last => exact ⟨[], (List.append_nil _).symm, Level.stops_nil _, .inl ⟨rfl, rfl⟩⟩

theorem Cut.ne_nil {inside : List Token} (h : Cut ending tokens ⟨inside, stop⟩ after) (some : inside ≠ []) :
    tokens ≠ [] := by
  obtain ⟨tail, rfl, -⟩ := h.tail
  exact List.append_ne_nil_of_left_ne_nil some tail

theorem Cut.suffix (h : Cut ending tokens chunk after) : after <:+ tokens := by
  obtain ⟨tail, rfl, -, ⟨-, rfl⟩ | ⟨rfl, -⟩⟩ := h.tail
  · exact List.nil_suffix
  · exact (List.suffix_cons _ _).trans (List.suffix_append _ _)

theorem Cut.length_lt (h : Cut ending tokens chunk after) (some : tokens ≠ []) : after.length < tokens.length := by
  obtain ⟨tail, rfl, -, ⟨rfl, rfl⟩ | ⟨rfl, -⟩⟩ := h.tail
  · exact List.length_pos_iff.mpr some
  · simp only [List.length_append, List.length_cons]
    omega

theorem exists_cut (ending : Token) : ∀ tokens, ∃ chunk after, Cut ending tokens chunk after
  | [] => ⟨⟨[], ending⟩, [], .last (List.forall_mem_nil _)⟩
  | token :: tokens => by
    by_cases closes : token.kind = .semicolon
    · exact ⟨⟨[], token⟩, tokens, .ofSemicolon closes⟩
    · obtain ⟨chunk, after, cuts⟩ := exists_cut ending tokens
      exact ⟨⟨token :: chunk.tokens, chunk.stop⟩, after, cuts.cons closes⟩

theorem Cut.cut_eq (h : Cut ending tokens chunk after) (some : tokens ≠ []) :
    cut ending tokens = chunk :: cut ending after := by
  induction tokens generalizing chunk with
  | nil => exact absurd rfl some
  | cons token tokens ih =>
    by_cases closes : token.kind = .semicolon
    · obtain ⟨rfl, rfl⟩ := h.first closes
      exact if_pos closes
    · obtain ⟨inside, stop, rfl, behind⟩ := h.uncons closes
      rw [cut, if_neg closes]
      cases tokens with
      | nil =>
        obtain ⟨eq, rfl⟩ := behind.of_nil
        cases eq
        rfl
      | cons => rw [ih behind (List.cons_ne_nil _ _)]

theorem exists_cut_of_mem (tokens : List Token) (h : chunk ∈ cut ending tokens) :
    ∃ rest after, rest <:+ tokens ∧ Cut ending rest chunk after := by
  by_cases none : tokens = []
  · subst none
    cases h
  · obtain ⟨first, after, cuts⟩ := exists_cut ending tokens
    rw [cuts.cut_eq none] at h
    rcases List.mem_cons.mp h with rfl | h
    · exact ⟨tokens, after, List.suffix_refl _, cuts⟩
    · have := cuts.length_lt none
      obtain ⟨rest, behind, suffix, cuts'⟩ := exists_cut_of_mem after h
      exact ⟨rest, behind, suffix.trans cuts.suffix, cuts'⟩
termination_by tokens.length

end

/-! ### Tokens inside expressions -/

/-- The kinds of the tokens that expressions are made of. -/
def kinds : List Kind := Level.equality.starters ++ Level.equality.absorbed ++ [.rightParen]

theorem Derives.mem_kinds {level : Level} {tokens : List Token} {tree : Expr} (h : Derives level tokens tree) :
    ∀ token ∈ tokens, token.kind ∈ kinds := by
  have leaf : ∀ kind ∈ leaves, kind ∈ kinds := by decide
  have sign : ∀ kind ∈ signs, kind ∈ kinds := by decide
  have binary : ∀ kind ∈ Level.equality.absorbed, kind ∈ kinds := by decide
  induction h with
  | leaf payload => exact List.forall_mem_singleton.mpr (leaf _ payload.mem_leaves)
  | grouping opens closes _ ih =>
    have parens : .leftParen ∈ kinds ∧ .rightParen ∈ kinds := by decide
    refine List.forall_mem_append.mpr ⟨List.forall_mem_cons.mpr ⟨?_, ih⟩, List.forall_mem_singleton.mpr ?_⟩
    · exact opens ▸ parens.1
    · exact closes ▸ parens.2
  | sign member _ ih => exact List.forall_mem_cons.mpr ⟨sign _ member, ih⟩
  | operand _ _ ih => exact ih
  | binary member _ _ ih ih' =>
    exact List.forall_mem_append.mpr ⟨ih, List.forall_mem_cons.mpr ⟨binary _ (mem_absorbed_equality member), ih'⟩⟩

theorem Begins.mem_kinds {level : Level} {tokens : List Token} (h : Begins level tokens) :
    ∀ token ∈ tokens, token.kind ∈ kinds := by
  obtain ⟨more, tree, derives⟩ := h
  exact fun token member => derives.mem_kinds token (List.mem_append_left more member)

theorem Fails.begins {front : List Token} {offending : Token} {complaint : Complaint}
    (h : Fails front offending complaint) : Begins .equality front := (h.cases .standard).1

/-- An expression fails for what is missing, not for its depth. -/
theorem Fails.shallow {front : List Token} {offending : Token} {complaint : Complaint}
    (h : Fails front offending complaint) : complaint ≠ .nestedTooDeeply := by
  cases h with
  | missing misses => cases misses <;> exact Complaint.noConfusion
  | complete => exact Complaint.noConfusion

/-- No expression goes on behind its chunk. -/
theorem Cut.split_kinds {ending stop : Token} {used rest inside after : List Token}
    (h : Cut ending (used ++ rest) ⟨inside, stop⟩ after) (inner : ∀ token ∈ used, token.kind ∈ kinds) :
    ∃ remaining, inside = used ++ remaining ∧ Cut ending rest ⟨remaining, stop⟩ after := by
  have separate : ∀ kind ∈ kinds, kind ≠ .semicolon := by decide
  exact h.split fun token member => separate _ (inner token member)

/-! ### Results of chunks -/

section

variable {stack : Stack}

theorem Reads.unique {chunk : Chunk} {trees trees' : List Expr} {errors errors' : List SyntaxError}
    (one : ∀ tree tree', Derives .equality chunk.tokens tree → Derives .equality chunk.tokens tree' → tree = tree')
    (h : Reads stack chunk trees errors) (h' : Reads stack chunk trees' errors')
    (shallow : Shallow errors) (shallow' : Shallow errors') : trees = trees' ∧ errors = errors' := by
  cases h with
  | empty =>
    cases h' with
    | empty => exact ⟨rfl, rfl⟩
    | tree derives => exact absurd rfl derives.ne_nil
    | failed some => exact absurd rfl some
    | tooDeep => exact absurd rfl (shallow' _ List.mem_cons_self)
  | tree derives =>
    cases h' with
    | empty => exact absurd rfl derives.ne_nil
    | tree derives' => exact ⟨congrArg (fun tree => [tree]) (one _ _ derives derives'), rfl⟩
    | failed _ none => exact absurd derives (none _)
    | tooDeep => exact absurd rfl (shallow' _ List.mem_cons_self)
  | failed some none eq fails =>
    cases h' with
    | empty => exact absurd rfl some
    | tree derives => exact absurd derives (none _)
    | failed _ _ eq' fails' =>
      obtain ⟨rfl, rfl, rfl⟩ := fails.unique fails' (eq.symm.trans eq')
      exact ⟨rfl, rfl⟩
    | tooDeep => exact absurd rfl (shallow' _ List.mem_cons_self)
  | tooDeep => exact absurd rfl (shallow _ List.mem_cons_self)

theorem ReadsAll.unique {chunks : List Chunk} {trees trees' : List Expr} {errors errors' : List SyntaxError}
    (one : ∀ chunk ∈ chunks, ∀ tree tree', Derives .equality chunk.tokens tree →
      Derives .equality chunk.tokens tree' → tree = tree')
    (h : ReadsAll stack chunks trees errors) (h' : ReadsAll stack chunks trees' errors')
    (shallow : Shallow errors) (shallow' : Shallow errors') : trees = trees' ∧ errors = errors' := by
  induction h generalizing trees' errors' with
  | nil =>
    cases h'
    exact ⟨rfl, rfl⟩
  | cons first _ ih =>
    cases h' with
    | cons first' rest' =>
      obtain ⟨head, tail⟩ := List.forall_mem_cons.mp one
      obtain ⟨here, there⟩ := List.forall_mem_append.mp shallow
      obtain ⟨here', there'⟩ := List.forall_mem_append.mp shallow'
      obtain ⟨rfl, rfl⟩ := first.unique head first' here here'
      obtain ⟨rfl, rfl⟩ := ih tail rest' there there'
      exact ⟨rfl, rfl⟩

end

theorem followUps_nil : followUps [] = [] := rfl

theorem followUps_cons_opener {opener : Token} {tokens : List Token} (h : opener.kind ∈ Kind.statementOpeners) :
    followUps (opener :: tokens) = ⟨opener, .expectExpression⟩ :: followUps tokens := by
  simp [followUps, h]

theorem followUps_cons_other {token : Token} {tokens : List Token} (h : token.kind ∉ Kind.statementOpeners) :
    followUps (token :: tokens) = followUps tokens := by
  simp [followUps, h]

theorem followUps_append (tokens more : List Token) :
    followUps (tokens ++ more) = followUps tokens ++ followUps more := by
  simp [followUps]

/-- A chunk that begins with a keyword fails at every keyword in it. -/
theorem Reads.of_opener {stack : Stack} {opener stop : Token} {tokens : List Token} {trees : List Expr}
    {errors : List SyntaxError} (h : Reads stack ⟨opener :: tokens, stop⟩ trees errors)
    (opens : opener.kind ∈ Kind.statementOpeners) (stops : stop.kind ∉ Kind.statementOpeners) :
    trees = [] ∧ errors = followUps (opener :: tokens) := by
  have disjoint : ∀ kind ∈ Kind.statementOpeners, kind ∉ kinds := by decide
  -- No beginning of an expression is in front of the keyword.
  have outside : ∀ {front behind : List Token}, Begins .equality front →
      opener :: tokens ++ [stop] = front ++ behind → front = [] := by
    intro front behind begins eq
    cases front with
    | nil => rfl
    | cons first front =>
      obtain ⟨rfl, -⟩ := List.cons.inj eq
      exact absurd (begins.mem_kinds opener List.mem_cons_self) (disjoint _ opens)
  cases h with
  | tree derives => exact absurd (derives.mem_kinds opener List.mem_cons_self) (disjoint _ opens)
  | tooDeep eq deep => exact absurd (outside deep.begins eq) (List.append_ne_nil_of_right_ne_nil _ (List.cons_ne_nil _ _))
  | @failed _ front behind _ offending complaint _ _ eq fails =>
    obtain rfl := outside fails.begins eq
    have same : opener :: (tokens ++ [stop]) = offending :: behind := eq
    obtain ⟨rfl, rfl⟩ := List.cons.inj same
    obtain ⟨-, -, outlook, start, rfl⟩ := fails.cases .standard
    cases start
    refine ⟨rfl, ?_⟩
    rw [followUps_cons_opener opens, followUps_append, followUps_cons_other stops, followUps_nil, List.append_nil]
    rfl

end ExprLang.Syntax
