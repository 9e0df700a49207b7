import ExprLang.Expr.Printer
import ExprLang.Proofs.Syntax.Chunks

/-! # Lines do not matter

Tokens, trees and errors are compared here without their lines. Whatever the grammar says of some tokens it says of the
same tokens on other lines, with a tree that is the same up to lines: derivations, failures and the results of chunks
all carry over. -/

namespace ExprLang

/-- The token, on no line. -/
def Token.unplaced (token : Token) : Token := { token with line := 0 }

/-- The tree with its operators on no line. -/
def Expr.unplaced : Expr → Expr
  | .literal value => .literal value
  | .grouping inner => .grouping inner.unplaced
  | .unary operator operand => .unary operator.unplaced operand.unplaced
  | .binary left operator right => .binary left.unplaced operator.unplaced right.unplaced
  | .bare => .bare

/-- The error with its token on no line. -/
def SyntaxError.unplaced (error : SyntaxError) : SyntaxError := { error with token := error.token.unplaced }

theorem Token.unplaced_eq_iff {token token' : Token} :
    token.unplaced = token'.unplaced ↔ token.kind = token'.kind ∧ token.lexeme = token'.lexeme := by
  simp [unplaced]

theorem Token.number_unplaced {token token' : Token} (same : token.unplaced = token'.unplaced) {value : Binary64}
    (read : token'.number = .ok value) : token.number = .ok value := by
  obtain ⟨kind, lexeme⟩ := unplaced_eq_iff.mp same
  rw [number, ← kind, ← lexeme] at read
  rw [number]
  split at read
  · next number =>
    rw [if_pos number]
    split at read
    · exact read
    · cases read
  · cases read

section

variable {stack : Stack}

theorem Expr.frames_unplaced : ∀ tree : Expr, tree.unplaced.frames stack = tree.frames stack
  | .literal _ | .bare => rfl
  | .grouping inner => congrArg (· + stack.paren) inner.frames_unplaced
  | .unary _ operand => congrArg (· + stack.sign) operand.frames_unplaced
  | .binary left _ right => by
    simp only [unplaced, frames, left.frames_unplaced, right.frames_unplaced]

theorem Expr.frames_eq_of_unplaced {tree tree' : Expr} (same : tree.unplaced = tree'.unplaced) :
    tree.frames stack = tree'.frames stack := by
  rw [← tree.frames_unplaced, same, frames_unplaced]

/-- A tree is shown without lines. -/
theorem Expr.printWithin_unplaced : ∀ (tree : Expr) (room : Nat),
    tree.unplaced.acceptWithin stack printer room = tree.acceptWithin stack printer room
  | .literal _, _ | .bare, _ => rfl
  | .grouping inner, room =>
    congrArg (fun text => Visitor.enter stack room (parenthesized "group" [text])) (inner.printWithin_unplaced _)
  | .unary operator operand, room =>
    congrArg (fun text => Visitor.enter stack room (parenthesized operator.lexeme [text]))
      (operand.printWithin_unplaced _)
  | .binary left operator right, room => by
    show Visitor.enter stack room (parenthesized operator.lexeme
      [left.unplaced.acceptWithin stack printer _, right.unplaced.acceptWithin stack printer _]) = _
    rw [left.printWithin_unplaced, right.printWithin_unplaced]
    rfl

theorem Expr.print_unplaced (tree : Expr) : tree.unplaced.print stack = tree.print stack :=
  tree.printWithin_unplaced stack.visits

theorem Expr.printAll_eq_of_unplaced {trees trees' : List Expr}
    (same : trees'.map unplaced = trees.map unplaced) : printAll stack trees' = printAll stack trees := by
  have shown : ∀ trees : List Expr, (trees.map unplaced).mapM (print stack) = trees.mapM (print stack) := fun trees => by
    rw [List.mapM_map]
    exact congrArg (fun f => trees.mapM f) (funext print_unplaced)
  rw [printAll, printAll, ← shown, same, shown]

end

namespace Syntax

open ExprLang.Parser

section

variable {whole front behind : List Token} {token : Token}

theorem unplaced_append (same : whole.map Token.unplaced = (front ++ behind).map Token.unplaced) :
    ∃ front' behind', whole = front' ++ behind' ∧ front'.map Token.unplaced = front.map Token.unplaced ∧
      behind'.map Token.unplaced = behind.map Token.unplaced := by
  rw [List.map_append] at same
  exact List.map_eq_append_iff.mp same

theorem unplaced_cons (same : whole.map Token.unplaced = (token :: behind).map Token.unplaced) :
    ∃ token' behind', whole = token' :: behind' ∧ token'.unplaced = token.unplaced ∧
      behind'.map Token.unplaced = behind.map Token.unplaced := by
  rw [List.map_cons] at same
  exact List.map_eq_cons_iff.mp same

theorem unplaced_singleton (same : whole.map Token.unplaced = [token].map Token.unplaced) :
    ∃ token', whole = [token'] ∧ token'.unplaced = token.unplaced := by
  obtain ⟨token', rest, rfl, here, none⟩ := unplaced_cons same
  obtain rfl := List.map_eq_nil_iff.mp none
  exact ⟨token', rfl, here⟩

theorem append_unplaced {front' behind' : List Token} (same : front'.map Token.unplaced = front.map Token.unplaced)
    (same' : behind'.map Token.unplaced = behind.map Token.unplaced) :
    (front' ++ behind').map Token.unplaced = (front ++ behind).map Token.unplaced := by
  rw [List.map_append, List.map_append, same, same']

theorem singleton_unplaced {token' : Token} (same : token'.unplaced = token.unplaced) :
    [token'].map Token.unplaced = [token].map Token.unplaced := congrArg (fun token => [token]) same

end

/-! ### Derivations -/

theorem Payload.elsewhere {token token' : Token} {value : Literal} (h : Payload token value)
    (same : token'.unplaced = token.unplaced) : Payload token' value := by
  obtain ⟨kind, lexeme⟩ := Token.unplaced_eq_iff.mp same
  cases h with
  | falseWord h => exact .falseWord (kind.trans h)
  | trueWord h => exact .trueWord (kind.trans h)
  | nullWord h => exact .nullWord (kind.trans h)
  | number h read => exact .number (kind.trans h) (Token.number_unplaced same read)
  | string h => exact lexeme ▸ .string (kind.trans h)

/-- The same tokens on other lines derive the same tree on other lines. -/
theorem Derives.elsewhere {level : Level} {tokens : List Token} {tree : Expr} (h : Derives level tokens tree) :
    ∀ {tokens' : List Token}, tokens'.map Token.unplaced = tokens.map Token.unplaced →
      ∃ tree', Derives level tokens' tree' ∧ tree'.unplaced = tree.unplaced := by
  induction h with
  | leaf payload =>
    intro tokens' same
    obtain ⟨token', rfl, here⟩ := unplaced_singleton same
    exact ⟨_, .leaf (payload.elsewhere here), rfl⟩
  | grouping opens closes _ ih =>
    intro tokens' same
    obtain ⟨front, last, rfl, front_eq, last_eq⟩ := unplaced_append same
    obtain ⟨opening', inside, rfl, opening_eq, inside_eq⟩ := unplaced_cons front_eq
    obtain ⟨closing', rfl, closing_eq⟩ := unplaced_singleton last_eq
    obtain ⟨inner', body, alike⟩ := ih inside_eq
    have opens' := (Token.unplaced_eq_iff.mp opening_eq).1.trans opens
    have closes' := (Token.unplaced_eq_iff.mp closing_eq).1.trans closes
    exact ⟨.grouping inner', .grouping opens' closes' body, congrArg Expr.grouping alike⟩
  | sign member _ ih =>
    intro tokens' same
    obtain ⟨operator', rest, rfl, here, behind⟩ := unplaced_cons same
    obtain ⟨operand', body, alike⟩ := ih behind
    have member' := (Token.unplaced_eq_iff.mp here).1 ▸ member
    refine ⟨.unary operator' operand', .sign member' body, ?_⟩
    rw [Expr.unplaced, Expr.unplaced, here, alike]
  | operand lower _ ih =>
    intro tokens' same
    obtain ⟨tree', body, alike⟩ := ih same
    exact ⟨tree', .operand lower body, alike⟩
  | binary member _ _ ih ih' =>
    intro tokens' same
    obtain ⟨lefts', behind, rfl, lefts_eq, behind_eq⟩ := unplaced_append same
    obtain ⟨operator', rights', rfl, here, rights_eq⟩ := unplaced_cons behind_eq
    obtain ⟨left', first, alike⟩ := ih lefts_eq
    obtain ⟨right', second, alike'⟩ := ih' rights_eq
    have member' := (Token.unplaced_eq_iff.mp here).1 ▸ member
    refine ⟨.binary left' operator' right', .binary member' first second, ?_⟩
    rw [Expr.unplaced, Expr.unplaced, here, alike, alike']

/-! ### Failures -/

theorem Begins.elsewhere {level : Level} {tokens tokens' : List Token} (h : Begins level tokens)
    (same : tokens'.map Token.unplaced = tokens.map Token.unplaced) : Begins level tokens' := by
  obtain ⟨more, tree, derives⟩ := h
  obtain ⟨tree', derives', -⟩ := derives.elsewhere (append_unplaced same rfl)
  exact ⟨more, tree', derives'⟩

theorem Fails.elsewhere {front front' : List Token} {offending offending' : Token} {complaint : Complaint}
    (h : Fails front offending complaint) (same : front'.map Token.unplaced = front.map Token.unplaced)
    (here : offending'.unplaced = offending.unplaced) : Fails front' offending' complaint := by
  have dead' : ¬Begins .equality (front ++ [offending]) → ¬Begins .equality (front' ++ [offending']) :=
    fun dead begins => dead (begins.elsewhere (append_unplaced same (singleton_unplaced here)).symm)
  cases h with
  | missing misses begins dead => exact .missing misses (begins.elsewhere (append_unplaced same rfl)) (dead' dead)
  | complete derives dead =>
    obtain ⟨tree', derives', -⟩ := derives.elsewhere same
    exact .complete derives' (dead' dead)

theorem TooDeep.elsewhere {stack : Stack} {level : Level} {room : Nat} {before before' : List Token}
    {opener opener' : Token} (h : TooDeep stack level room before opener)
    (same : before'.map Token.unplaced = before.map Token.unplaced) (here : opener'.unplaced = opener.unplaced) :
    TooDeep stack level room before' opener' where
  within := by
    obtain ⟨more, tree, derives, fits⟩ := h.within
    obtain ⟨tree', derives', alike⟩ := derives.elsewhere (append_unplaced same rfl)
    exact ⟨more, tree', derives', Expr.frames_eq_of_unplaced alike ▸ fits⟩
  begins := h.begins.elsewhere (append_unplaced same (singleton_unplaced here))
  beyond more tree derives := by
    obtain ⟨tree', derives', alike⟩ :=
      derives.elsewhere (append_unplaced (append_unplaced same (singleton_unplaced here)) rfl).symm
    exact Expr.frames_eq_of_unplaced alike ▸ h.beyond more tree' derives'

/-! ### Chunks -/

/-- The chunk with its tokens on no line. -/
def Chunk.unplaced (chunk : Chunk) : Chunk := ⟨chunk.tokens.map Token.unplaced, chunk.stop.unplaced⟩

theorem unplaced_endOf {tokens tokens' : List Token} : (endOf tokens).unplaced = (endOf tokens').unplaced := rfl

theorem cut_unplaced (ending : Token) : ∀ tokens : List Token,
    cut ending.unplaced (tokens.map Token.unplaced) = (cut ending tokens).map Chunk.unplaced
  | [] => rfl
  | token :: tokens => by
    have kind : token.unplaced.kind = token.kind := rfl
    rw [List.map_cons, cut, cut, kind, cut_unplaced ending tokens]
    split
    · rfl
    · cases cut ending tokens <;> rfl

theorem chunksOf_unplaced {tokens tokens' : List Token}
    (same : tokens'.map Token.unplaced = tokens.map Token.unplaced) :
    (chunksOf tokens').map Chunk.unplaced = (chunksOf tokens).map Chunk.unplaced := by
  rw [chunksOf, chunksOf, ← cut_unplaced, ← cut_unplaced, same, unplaced_endOf]

theorem followUps_unplaced (tokens : List Token) :
    followUps (tokens.map Token.unplaced) = (followUps tokens).map SyntaxError.unplaced := by
  simp only [followUps, List.filter_map, List.map_map]
  rfl

theorem Reads.elsewhere {stack : Stack} {chunk chunk' : Chunk} {trees : List Expr} {errors : List SyntaxError}
    (h : Reads stack chunk trees errors) (same : chunk'.unplaced = chunk.unplaced) :
    ∃ trees' errors', Reads stack chunk' trees' errors' ∧ trees'.map Expr.unplaced = trees.map Expr.unplaced ∧
      errors'.map SyntaxError.unplaced = errors.map SyntaxError.unplaced := by
  obtain ⟨tokens', stop'⟩ := chunk'
  have tokens_eq : tokens'.map Token.unplaced = chunk.tokens.map Token.unplaced := congrArg Chunk.tokens same
  -- The token that ends the chunk is compared with the others: the error may stand at it.
  have whole : (tokens' ++ [stop']).map Token.unplaced = (chunk.tokens ++ [chunk.stop]).map Token.unplaced :=
    append_unplaced tokens_eq (singleton_unplaced (congrArg Chunk.stop same))
  have follow : ∀ {offending offending' : Token} {complaint : Complaint} {behind behind' : List Token},
      offending'.unplaced = offending.unplaced → behind'.map Token.unplaced = behind.map Token.unplaced →
      (⟨offending', complaint⟩ :: followUps behind').map SyntaxError.unplaced =
        (⟨offending, complaint⟩ :: followUps behind).map SyntaxError.unplaced := by
    intro offending offending' complaint behind behind' here behind_eq
    rw [List.map_cons, List.map_cons, ← followUps_unplaced, ← followUps_unplaced, behind_eq]
    simp only [SyntaxError.unplaced, here]
  cases h with
  | empty =>
    obtain rfl := List.map_eq_nil_iff.mp tokens_eq
    exact ⟨[], [], .empty, rfl, rfl⟩
  | tree derives fits =>
    obtain ⟨tree', derives', alike⟩ := derives.elsewhere tokens_eq
    refine ⟨[tree'], [], .tree derives' (Expr.frames_eq_of_unplaced alike ▸ fits), ?_, rfl⟩
    rw [List.map_singleton, List.map_singleton, alike]
  | failed some none eq fails =>
    rw [eq] at whole
    obtain ⟨front', last, eq', front_eq, last_eq⟩ := unplaced_append whole
    obtain ⟨offending', behind', rfl, offending_eq, behind_eq⟩ := unplaced_cons last_eq
    refine ⟨[], _, .failed ?_ ?_ eq' (fails.elsewhere front_eq offending_eq), rfl, follow offending_eq behind_eq⟩
    · rintro rfl
      exact some (List.map_eq_nil_iff.mp tokens_eq.symm)
    · intro tree derives
      obtain ⟨tree', derives', -⟩ := derives.elsewhere tokens_eq.symm
      exact none tree' derives'
  | tooDeep eq deep =>
    rw [eq] at whole
    obtain ⟨front', last, eq', front_eq, last_eq⟩ := unplaced_append whole
    obtain ⟨offending', behind', rfl, offending_eq, behind_eq⟩ := unplaced_cons last_eq
    obtain ⟨before', tail, rfl, before_eq, tail_eq⟩ := unplaced_append front_eq
    obtain ⟨opener', rfl, opener_eq⟩ := unplaced_singleton tail_eq
    exact ⟨[], _, .tooDeep eq' (deep.elsewhere before_eq opener_eq), rfl, follow offending_eq behind_eq⟩

theorem ReadsAll.elsewhere {stack : Stack} {chunks : List Chunk} {trees : List Expr} {errors : List SyntaxError}
    (h : ReadsAll stack chunks trees errors) : ∀ {chunks' : List Chunk},
      chunks'.map Chunk.unplaced = chunks.map Chunk.unplaced → ∃ trees' errors',
        ReadsAll stack chunks' trees' errors' ∧ trees'.map Expr.unplaced = trees.map Expr.unplaced ∧
        errors'.map SyntaxError.unplaced = errors.map SyntaxError.unplaced := by
  induction h with
  | nil =>
    intro chunks' same
    obtain rfl := List.map_eq_nil_iff.mp same
    exact ⟨[], [], .nil, rfl, rfl⟩
  | cons first _ ih =>
    intro chunks' same
    obtain ⟨chunk', others', rfl, here, behind⟩ := List.map_eq_cons_iff.mp same
    obtain ⟨trees', errors', reads, trees_eq, errors_eq⟩ := first.elsewhere here
    obtain ⟨more_trees, more_errors, rest, more_trees_eq, more_errors_eq⟩ := ih behind
    refine ⟨_, _, .cons reads rest, ?_, ?_⟩
    · rw [List.map_append, List.map_append, trees_eq, more_trees_eq]
    · rw [List.map_append, List.map_append, errors_eq, more_errors_eq]

end Syntax

end ExprLang
