import ExprLang.Proofs.Parser.Rounds
import ExprLang.Proofs.Syntax.Written

/-! # From a tree to text and back

The text of a proper tree is scanned back to the tokens it was written with, from which the grammar derives the tree;
being an expression as a whole it is read to its end, by itself and as the only statement of a text. -/

namespace ExprLang

open ExprLang.Parser Lexical Syntax

namespace Parser

variable {stack : Stack} {text : String} {p q : Parser} {tree : Expr}

/-- A scanner that has nothing to report on a text reports nothing as long as no token is lost. -/
theorem Noted.diagnostics {used : List Token} (h : Noted false (ofText text) used q)
    (clean : (Scanner.tokenize text).2 = []) : q.scanner.diagnostics = #[] :=
  Array.toList_eq_nil_iff.mp (List.prefix_nil.mp (clean ▸ h.run.diagnostics_prefix))

/-- No error is recorded, nothing was reported, and no token is left. -/
structure Clean (p : Parser) : Prop where
  errors : p.errors = #[]
  diagnostics : p.scanner.diagnostics = #[]
  unread : p.unread = []

/-- A text that is an expression as a whole gives its tree as the first one, and nothing is left. -/
theorem parse_of_whole (derives : Derives .equality (Scanner.tokenize text).1 tree)
    (fits : tree.frames stack + stack.needs.most ≤ stack.room) (clean : (Scanner.tokenize text).2 = []) :
    ∃ q, parse stack (ofText text) = .ok tree q ∧ q.Clean := by
  have readable : (ofText text).Readable := .of_fresh rfl
  have whole : (ofText text).unread = (Scanner.tokenize text).1 ++ [] := by rw [unread_ofText, List.append_nil]
  obtain ⟨token, start, q, next, ran, ended, run⟩ := parse_of_derives derives fits whole (Level.stops_nil _)
  have untorn : ¬Tears (expression stack).run (ofText text).peek.2 := by
    rw [next]
    rintro ⟨r, failed⟩
    rw [ran] at failed
    cases failed
  obtain ⟨used, noted, -⟩ := parse_noted run readable (.inr untorn)
  obtain ⟨tree', q', run', parses⟩ := exists_parses stack readable
  rw [run] at run'
  cases run'
  have errors : q.errors = #[] := (parses.genuine derives.genuine.ne_illegal).2
  exact ⟨q, run, errors, noted.diagnostics clean, ended⟩

/-- It gives its tree as the only one, too. -/
theorem parseAll_of_whole (derives : Derives .equality (Scanner.tokenize text).1 tree)
    (fits : tree.frames stack + stack.needs.most ≤ stack.room) (clean : (Scanner.tokenize text).2 = []) :
    ∃ q, parseAll stack (ofText text) = .ok [tree] q ∧ q.Clean := by
  have readable : (ofText text).Readable := .of_fresh rfl
  have whole : (ofText text).unread = (Scanner.tokenize text).1 ++ [] := by rw [unread_ofText, List.append_nil]
  obtain ⟨token, start, q, next, ran, ended, run⟩ := parse_of_derives derives fits whole (Level.stops_nil _)
  have separate : ∀ kind ∈ kinds, kind ≠ .semicolon := by decide
  have other : token.kind ≠ .semicolon := by
    have member : token ∈ (Scanner.tokenize text).1 := by
      rw [← unread_ofText, unread_shift next]
      exact List.mem_cons_self
    exact separate _ (derives.mem_kinds token member)
  have read : bounded (expression stack).run start = .ok tree q := by rw [bounded, ran]
  rcases statement_of_read read with ⟨ending, r, more, ends, stated⟩ | ⟨token', tokens, r, look, ahead, -⟩
  · have left := more.unread_eq
    rw [ended] at left
    obtain ⟨rfl, none⟩ := List.append_eq_nil_iff.mp left.symm
    have first : Round stack (ofText text) (some tree) r := .statement next other (by rw [recovering, stated])
    obtain ⟨last, next', -⟩ := peek_of_nil none
    have all : parseAll stack (ofText text) = .ok [tree] last :=
      parseAll_eq_ok_iff.mpr ⟨r, .round first (.refl r), next'⟩
    obtain ⟨errors, recorded, one⟩ := first.errors readable
    have errors_nil : r.errors.toList = [] := by
      have length : 1 + errors.length ≤ 1 := one
      rw [recorded, List.length_eq_zero_iff.mp (by omega : errors.length = 0)]
      rfl
    have still := Moves.look next'
    have clean_errors : last.errors = #[] := still.errors_eq.trans (Array.toList_eq_nil_iff.mp errors_nil)
    have intact : Intact stack (ofText text) := by
      refine intact_of_shallow readable all ?_
      rw [clean_errors]
      exact .nil
    obtain ⟨⟨used, noted⟩, done⟩ := parseAll_noted all readable (.inr intact)
    exact ⟨last, all, clean_errors, noted.diagnostics clean, done⟩
  · rw [← look.unread_same, ended] at ahead
    cases ahead

/-- A proper tree for which there is room can be written down, and however that is done, its text gives the tree again
    up to lines: as the first expression, with which the text ends, and as the only one. -/
theorem parse_spaced {level : Level} (proper : Proper level tree)
    (fits : tree.frames stack + stack.needs.most ≤ stack.room) :
    (∃ tokens, Written tree tokens) ∧ ∀ tokens, Written tree tokens → (Scanner.tokenize (spaced tokens)).2 = [] ∧
      ∃ tree', tree'.unplaced = tree.unplaced ∧
        (∃ q, parse stack (ofText (spaced tokens)) = .ok tree' q ∧ q.Clean) ∧
        ∃ q, parseAll stack (ofText (spaced tokens)) = .ok [tree'] q ∧ q.Clean := by
  refine ⟨proper.exists_written, fun tokens written => ?_⟩
  have derives : Derives .equality tokens tree := (proper.derives written).of_rank_le (Nat.zero_le _)
  obtain ⟨same, clean⟩ := tokenize_spaced derives.ne_nil (proper.wellFormed written)
  obtain ⟨tree', derives', alike⟩ := derives.elsewhere same
  have fits' : tree'.frames stack + stack.needs.most ≤ stack.room := Expr.frames_eq_of_unplaced alike ▸ fits
  exact ⟨clean, tree', alike, parse_of_whole derives' fits' clean, parseAll_of_whole derives' fits' clean⟩

theorem parse_spaced_negation : ∃ tree q, parse .standard (ofText "- 1.5 == \"a b\"") = .ok tree q ∧ q.Clean ∧
    tree.unplaced = .binary (.unary ⟨.minus, "-", 0⟩ (.literal (.number (.ofDecimal ⟨15, 1⟩)))) ⟨.equal, "==", 0⟩
      (.literal (.text "a b")) := by
  have whole : Digits ['1'] := ⟨List.cons_ne_nil _ _, List.forall_mem_singleton.mpr rfl⟩
  have places : Digits ['5'] := ⟨List.cons_ne_nil _ _, List.forall_mem_singleton.mpr rfl⟩
  have form : Number "1.5".toList := .fraction whole places
  have value : Token.number ⟨.number, "1.5", 0⟩ = .ok (.ofDecimal ⟨15, 1⟩) := rfl
  have equals : ('=', .assign, .equal) ∈ operators := by decide
  have quotes : '"' ∉ "a b".toList := by decide
  have negation : Proper .unary (.unary ⟨.minus, "-", 0⟩ _) :=
    .unary (by decide) (.symbol (by decide)) (.literal (.number form value)) (by decide)
  have proper : Proper .equality (.binary _ ⟨.equal, "==", 0⟩ _) :=
    .binary (by decide) (.withEqual equals) negation (.literal (.text quotes)) (by decide) (by decide)
  have number : Written _ [⟨.number, "1.5", 0⟩] := .literal (.number rfl value) (.number form)
  have string : Written _ [⟨.string, "a b", 0⟩] := .literal (.string rfl) (.string quotes)
  have fits : Expr.frames .standard (.binary (.unary ⟨.minus, "-", 0⟩ (.literal (.number (.ofDecimal ⟨15, 1⟩))))
      ⟨.equal, "==", 0⟩ (.literal (.text "a b"))) + Stack.standard.needs.most ≤ Stack.standard.room := by decide
  obtain ⟨-, tree, alike, ⟨q, run, clean⟩, -⟩ := (parse_spaced proper fits).2 _ (.binary (.unary number) string)
  exact ⟨tree, q, run, clean, alike⟩

end Parser

end ExprLang
