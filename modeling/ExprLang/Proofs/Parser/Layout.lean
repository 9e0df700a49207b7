import ExprLang.Proofs.Lexical.Insertion
import ExprLang.Proofs.Parser.First
import ExprLang.Proofs.Syntax.Lines

/-! # Layout does not matter

What a text gives follows from its tokens by the grammar alone as long as it is not too deep, and the grammar sees no
lines. Hence two texts whose tokens are the same up to lines give the same trees and the same errors up to lines
(`parse_elsewhere`, `parseAll_elsewhere`), and so do a text and what becomes of it when a separator is put in where a
token begins or ends. Where the depth is recorded this may be otherwise: passing over a comment takes some room too. -/

namespace ExprLang

open ExprLang.Parser Lexical Syntax

namespace Syntax

variable {tokens tokens' : List Token}

theorem endOf_elsewhere (same : tokens'.map Token.unplaced = tokens.map Token.unplaced) :
    (tokens' ++ [endOf tokens']).map Token.unplaced = (tokens ++ [endOf tokens]).map Token.unplaced :=
  append_unplaced same (singleton_unplaced unplaced_endOf)

theorem stops_elsewhere {level : Level} (h : level.Stops tokens)
    (same : tokens'.map Token.unplaced = tokens.map Token.unplaced) : level.Stops tokens' := by
  cases tokens with
  | nil =>
    obtain rfl := List.map_eq_nil_iff.mp same
    exact h
  | cons =>
    obtain ⟨first, behind, rfl, here, -⟩ := unplaced_cons same
    rw [Level.stops_cons] at h ⊢
    rwa [(Token.unplaced_eq_iff.mp here).1]

theorem Splits.elsewhere {level : Level} {used rest : List Token} {tree : Expr} (h : Splits level tokens used tree rest)
    (same : tokens'.map Token.unplaced = tokens.map Token.unplaced) :
    ∃ used' tree' rest', Splits level tokens' used' tree' rest' ∧ tree'.unplaced = tree.unplaced := by
  obtain ⟨used', rest', rfl, used_eq, rest_eq⟩ := unplaced_append (h.tokens_eq ▸ same)
  obtain ⟨tree', derives, alike⟩ := h.derives.elsewhere used_eq
  exact ⟨used', tree', rest', ⟨rfl, derives, stops_elsewhere h.stops rest_eq⟩, alike⟩

end Syntax

theorem Lexical.Lowers.unplaced {text text' : String} {offset lines : Nat} (h : Lowers text text' offset lines) :
    (Scanner.tokenize text').1.map Token.unplaced = (Scanner.tokenize text).1.map Token.unplaced := by
  rw [h.before, h.after, List.map_map, List.map_map]
  rfl

namespace Parser

variable {stack : Stack} {text text' : String}

theorem First.elsewhere {tokens tokens' : List Token} {tree : Expr} {errors : List SyntaxError}
    (h : First stack tokens tree errors) (same : tokens'.map Token.unplaced = tokens.map Token.unplaced) :
    ∃ tree' errors', First stack tokens' tree' errors' ∧ tree'.unplaced = tree.unplaced ∧
      errors'.map SyntaxError.unplaced = errors.map SyntaxError.unplaced := by
  cases h with
  | empty none =>
    subst none
    exact ⟨_, _, .empty (List.map_eq_nil_iff.mp same), rfl, rfl⟩
  | tree splits fits =>
    obtain ⟨used', tree', rest', splits', alike⟩ := splits.elsewhere same
    exact ⟨tree', [], .tree splits' (Expr.frames_eq_of_unplaced alike ▸ fits), alike, rfl⟩
  | failed some none eq fails =>
    obtain ⟨front', last, eq', front_eq, last_eq⟩ := unplaced_append (eq ▸ endOf_elsewhere same)
    obtain ⟨offending', behind', rfl, here, -⟩ := unplaced_cons last_eq
    refine ⟨_, _, .failed ?_ ?_ eq' (fails.elsewhere front_eq here), rfl, ?_⟩
    · rintro rfl
      exact some (List.map_eq_nil_iff.mp same.symm)
    · intro used' tree' rest' splits'
      obtain ⟨used, tree, rest, splits, -⟩ := splits'.elsewhere same.symm
      exact none used tree rest splits
    · simp only [List.map_singleton, SyntaxError.unplaced, here]
  | tooDeep eq deep =>
    obtain ⟨front', last, eq', front_eq, last_eq⟩ := unplaced_append (eq ▸ endOf_elsewhere same)
    obtain ⟨before', opener', rfl, before_eq, opener_eq⟩ := unplaced_append front_eq
    obtain ⟨offending', behind', rfl, here, -⟩ := unplaced_cons last_eq
    obtain ⟨opener', rfl, opener_here⟩ := unplaced_singleton opener_eq
    refine ⟨_, _, .tooDeep eq' (deep.elsewhere before_eq opener_here), rfl, ?_⟩
    simp only [List.map_singleton, SyntaxError.unplaced, here]

theorem shallow_elsewhere {errors errors' : List SyntaxError}
    (same : errors'.map SyntaxError.unplaced = errors.map SyntaxError.unplaced) (h : Shallow errors) :
    Shallow errors' := by
  intro error member
  have moved : error.unplaced ∈ errors.map SyntaxError.unplaced := same ▸ List.mem_map_of_mem member
  obtain ⟨error', member', eq⟩ := List.mem_map.mp moved
  have alike := congrArg SyntaxError.complaint eq
  have complaint : error'.complaint = error.complaint := alike
  exact complaint ▸ h error' member'

theorem parse_elsewhere
    (same : (Scanner.tokenize text').1.map Token.unplaced = (Scanner.tokenize text).1.map Token.unplaced)
    {tree tree' : Expr} {q q' : Parser} (run : parse stack (ofText text) = .ok tree q)
    (run' : parse stack (ofText text') = .ok tree' q') (shallow : Shallow q.errors.toList)
    (shallow' : Shallow q'.errors.toList) : tree'.unplaced = tree.unplaced ∧
      q'.errors.toList.map SyntaxError.unplaced = q.errors.toList.map SyntaxError.unplaced := by
  obtain ⟨expected, errors, moved, alike, errors_eq⟩ := (first_of_parse run shallow).elsewhere same
  obtain ⟨rfl, rfl⟩ := moved.unique (first_of_parse run' shallow') (shallow_elsewhere errors_eq shallow) shallow'
  exact ⟨alike, errors_eq⟩

theorem parseAll_elsewhere
    (same : (Scanner.tokenize text').1.map Token.unplaced = (Scanner.tokenize text).1.map Token.unplaced)
    {trees trees' : List Expr} {q q' : Parser} (run : parseAll stack (ofText text) = .ok trees q)
    (run' : parseAll stack (ofText text') = .ok trees' q') (shallow : Shallow q.errors.toList)
    (shallow' : Shallow q'.errors.toList) : trees'.map Expr.unplaced = trees.map Expr.unplaced ∧
      q'.errors.toList.map SyntaxError.unplaced = q.errors.toList.map SyntaxError.unplaced := by
  obtain ⟨expected, errors, moved, alike, errors_eq⟩ :=
    (readsAll_of_parseAll run shallow).elsewhere (chunksOf_unplaced same)
  obtain ⟨rfl, rfl⟩ := moved.unique (fun _ member => chunk_unique member) (readsAll_of_parseAll run' shallow')
    (shallow_elsewhere errors_eq shallow) shallow'
  exact ⟨alike, errors_eq⟩

/-- A separator put in where a token begins or ends moves what stands behind it down by its lines, and changes nothing
    else: neither what is scanned and reported, nor, if the depth is not recorded, the trees, their text and the
    errors. -/
theorem insertAt_irrelevant (stack : Stack) {offset : Nat} {piece : List Char} (separator : Separator piece)
    (border : Border (Scanner.spansOf text) offset) :
    Lowers text (insertAt text offset piece) offset (piece.count '\n') ∧
      (∃ tree q tree' q', parse stack (ofText text) = .ok tree q ∧
        parse stack (ofText (insertAt text offset piece)) = .ok tree' q' ∧
        (Shallow q.errors.toList → Shallow q'.errors.toList → tree'.unplaced = tree.unplaced ∧
          tree'.print stack = tree.print stack ∧
          q'.errors.toList.map SyntaxError.unplaced = q.errors.toList.map SyntaxError.unplaced)) ∧
      ∃ trees q trees' q', parseAll stack (ofText text) = .ok trees q ∧
        parseAll stack (ofText (insertAt text offset piece)) = .ok trees' q' ∧
        (Shallow q.errors.toList → Shallow q'.errors.toList → trees'.map Expr.unplaced = trees.map Expr.unplaced ∧
          Expr.printAll stack trees' = Expr.printAll stack trees ∧
          q'.errors.toList.map SyntaxError.unplaced = q.errors.toList.map SyntaxError.unplaced) := by
  have lowers := lowers_insertAt separator border
  obtain ⟨tree, q, run⟩ := exists_parse stack (p := ofText text) (.of_fresh rfl)
  obtain ⟨tree', q', run'⟩ := exists_parse stack (p := ofText (insertAt text offset piece)) (.of_fresh rfl)
  obtain ⟨trees, r, all⟩ := exists_parseAll stack (p := ofText text) (.of_fresh rfl)
  obtain ⟨trees', r', all'⟩ := exists_parseAll stack (p := ofText (insertAt text offset piece)) (.of_fresh rfl)
  refine ⟨lowers, ⟨tree, q, tree', q', run, run', fun shallow shallow' => ?_⟩, trees, r, trees', r', all, all',
    fun shallow shallow' => ?_⟩
  · obtain ⟨alike, errors⟩ := parse_elsewhere lowers.unplaced run run' shallow shallow'
    have shown : tree'.print stack = tree.print stack := by rw [← tree'.print_unplaced, alike, tree.print_unplaced]
    exact ⟨alike, shown, errors⟩
  · obtain ⟨alikes, errors⟩ := parseAll_elsewhere lowers.unplaced all all' shallow shallow'
    exact ⟨alikes, Expr.printAll_eq_of_unplaced alikes, errors⟩

theorem insertAt_irrelevant_comment : ∃ tree q tree' q', parse .standard (ofText "1-2") = .ok tree q ∧
    parse .standard (ofText "1\n// one\n-2") = .ok tree' q' ∧ tree'.print .standard = tree.print .standard := by
  have body : '\n' ∉ " one".toList := by decide
  have separator : Separator "\n// one\n".toList :=
    ⟨.blank (by decide) (.comment body .nil), by decide, by decide⟩
  have starts : 1 ∈ (Scanner.spansOf "1-2").map (·.start) := by decide +kernel
  obtain ⟨span, member, start⟩ := List.mem_map.mp starts
  obtain ⟨-, ⟨tree, q, tree', q', run, run', same⟩, -⟩ :=
    insertAt_irrelevant .standard separator ⟨span, member, .inl start.symm⟩
  have clean : (outcome (parse .standard) "1-2").map (·.2) = some [] := by decide +kernel
  have clean' : (outcome (parse .standard) "1\n// one\n-2").map (·.2) = some [] := by decide +kernel
  have moved : parse .standard (ofText "1\n// one\n-2") = .ok tree' q' := run'
  rw [outcome, run] at clean
  rw [outcome, moved] at clean'
  have none : q.errors.toList = [] := Option.some.inj clean
  have none' : q'.errors.toList = [] := Option.some.inj clean'
  obtain ⟨-, shown, -⟩ := same (none ▸ List.forall_mem_nil _) (none' ▸ List.forall_mem_nil _)
  exact ⟨tree, q, tree', q', run, run', shown⟩

end Parser

end ExprLang
