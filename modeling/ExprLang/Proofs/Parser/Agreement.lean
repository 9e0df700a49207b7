import ExprLang.Proofs.Parser.First

/-! # The first expression and the whole text

A text can be read for its first expression only, or for all its expressions. What the former says of the front of the
text, the latter says of its first chunk: the same error, or the same tree if nothing or a semicolon follows; a tree
that anything else follows is dropped, with a complaint about what follows. Both try the same expression at the same
place, so it is enough to see what each makes of the result. Where recovering ends in front of a keyword, the next round
ends there as well, so no tree comes before a semicolon is used (`Barren`). What the rest of the first chunk gives is
told by the grammar where the room never ends inside a token. -/

namespace ExprLang

open ExprLang.Parser Syntax

/-! ### The first chunk -/

/-- What the first chunk of the tokens gives, in front of what all the others give. -/
inductive Syntax.Leads (stack : Stack) (tokens : List Token) :
    List Expr → List SyntaxError → List Expr → List SyntaxError → Prop
  | intro {chunk : Chunk} {after : List Token} {trees trees' : List Expr} {errors errors' : List SyntaxError}
    (cuts : Cut (endOf tokens) tokens chunk after) (first : Reads stack chunk trees errors)
    (rest : ReadsAll stack (cut (endOf tokens) after) trees' errors') :
    Leads stack tokens trees errors (trees ++ trees') (errors ++ errors')

/-- A chunk with a tree has no errors. -/
theorem Syntax.Leads.errors_eq_nil {stack : Stack} {tokens : List Token} {tree : Expr} {trees : List Expr}
    {errors all : List SyntaxError} (h : Leads stack tokens [tree] errors trees all) : errors = [] := by
  generalize eq : [tree] = lead at h
  cases h with
  | intro cuts first rest =>
    cases first with
    | tree => rfl
    | empty | failed | tooDeep => cases eq

namespace Parser

/-! ### Without a tree -/

/-- Nothing is left, or a semicolon was used last. -/
def Closed (p : Parser) : Prop := p.unread = [] ∨ p.current.kind = .semicolon

/-- Where recovering ends: the statement is closed, or a keyword comes next that opens another one. -/
def Halts (p : Parser) : Prop :=
  p.Closed ∨ ∃ token q, p.peek = (some token, q) ∧ token.kind ∈ Kind.statementOpeners

theorem halts_skipStatement (p : Parser) : p.skipStatement.Halts := by
  have again : ∀ {p q : Parser} {token : Token}, p.peek = (some token, q) → ∃ r, q.peek = (some token, r) := by
    intro p q token next
    have ahead : q.unread.head? = some token := by
      rw [← (Moves.look next).unread_same, ← head?_unread, next]
    obtain ⟨tokens, eq⟩ := List.head?_eq_some_iff.mp ahead
    obtain ⟨r, next', -⟩ := peek_of_cons eq
    exact ⟨r, next'⟩
  fun_induction skipStatement p with
  | case1 p q next => exact .inl (.inl ((Moves.look next).unread_same ▸ unread_of_peek_none next))
  | case2 p token q next stop =>
    rcases stop with closed | opens
    · exact .inl (.inr closed)
    · obtain ⟨r, next'⟩ := again next
      exact .inr ⟨token, r, next', opens⟩
  | case3 p token q next stop lt ih => exact ih

theorem halts_synchronize (p : Parser) : p.synchronize.Halts := by
  unfold synchronize
  split
  · next q next => exact .inl (.inl ((Moves.look next).unread_same ▸ unread_of_peek_none next))
  · next token q next => exact halts_skipStatement _

/-- A keyword that opens a statement begins no expression, so the round that begins with it gives no tree. -/
theorem round_of_opener (stack : Stack) {p q : Parser} {token : Token} (readable : p.Readable)
    (next : p.peek = (some token, q)) (opens : token.kind ∈ Kind.statementOpeners) :
    ∃ r, Round stack p none r ∧ r.Halts ∧ r.remaining < p.remaining := by
  have other : token.kind ≠ .semicolon := by
    rintro closes
    rw [closes] at opens
    revert opens
    decide
  have outside : ∀ kind ∈ Kind.statementOpeners, kind ∉ kinds := by decide
  have look := Moves.look next
  rcases recovering_cases stack (look.readable readable) with ⟨tree, r, stated, -⟩ | ⟨error, mid, -, ran⟩
  · cases stated with
    | @read _ used ending _ moves derives =>
      have ahead : q.unread.head? = some token := by
        rw [← look.unread_same, ← head?_unread, next]
      rw [moves.unread_eq, List.append_assoc] at ahead
      obtain ⟨first, others, rfl⟩ := List.exists_cons_of_ne_nil derives.ne_nil
      obtain rfl : first = token := Option.some.inj ahead
      exact absurd (derives.mem_kinds first List.mem_cons_self) (outside _ opens)
  · refine ⟨_, .statement next other ran, halts_synchronize _, ?_⟩
    have behind := remaining_shift_lt next
    have less := remaining_le_of_peek next
    rcases remaining_recovering (uses_statement stack) ran with none | fewer <;> omega

/-- Where recovering has ended, rounds lead to the end or behind the next semicolon without a tree. -/
theorem exists_closed (stack : Stack) (n : Nat) : ∀ {p : Parser}, p.remaining < n → p.Readable → p.Halts →
    ∃ mid, Rounds stack p [] mid ∧ mid.Closed := by
  induction n with
  | zero => exact fun short => absurd short (Nat.not_lt_zero _)
  | succ n ih =>
    intro p short readable halts
    rcases halts with closed | ⟨token, q, next, opens⟩
    · exact ⟨p, .refl p, closed⟩
    · obtain ⟨r, first, halts, fewer⟩ := round_of_opener stack readable next opens
      obtain ⟨mid, rest, closed⟩ := ih (by omega) (first.readable readable) halts
      exact ⟨mid, .round first rest, closed⟩

/-- No tree comes of what is in front of the first semicolon: without one the rounds lead to the end or behind a
    semicolon, and all the trees come of what is left there. -/
def Barren (stack : Stack) (p : Parser) (trees : List Expr) (r : Parser) : Prop :=
  ∃ mid, Rounds stack p [] mid ∧ mid.Closed ∧ parseAll stack mid = .ok trees r

theorem Round.barren {stack : Stack} {p q r : Parser} {trees : List Expr} (first : Round stack p none q)
    (readable : p.Readable) (halts : q.Halts) (run : parseAll stack p = .ok trees r) : Barren stack p trees r := by
  obtain ⟨last, rounds, ended⟩ := parseAll_eq_ok_iff.mp run
  obtain ⟨mid, front, closed⟩ := exists_closed stack _ (Nat.lt_succ_self _) (first.readable readable) halts
  have through : Rounds stack p [] mid := .round first front
  obtain ⟨rest, rfl, behind⟩ := through.split rounds (unread_of_peek_none ended)
  exact ⟨mid, through, closed, parseAll_eq_ok_iff.mpr ⟨last, behind, ended⟩⟩

/-! ### Three cases -/

/-- One of three holds, and no other. -/
def ExactlyOne (a b c : Prop) : Prop := (a ∧ ¬b ∧ ¬c) ∨ (¬a ∧ b ∧ ¬c) ∨ (¬a ∧ ¬b ∧ c)

section

variable (stack : Stack) (text : String) (q : Parser) (tree : Expr) (r : Parser) (trees : List Expr)

/-- The first expression fails: its error is the first of the whole, and its chunk gives no tree. -/
def Refused : Prop := ∃ error, q.errors.toList = [error] ∧ r.errors.toList.head? = some error ∧
  Barren stack (ofText text) trees r ∧
  (Intact stack (ofText text) →
    ∃ more, Leads stack (Scanner.tokenize text).1 [] (error :: more) trees r.errors.toList)

/-- The first expression is all of its chunk: it is the first tree of the whole, and its chunk gives no error. -/
def Accepted : Prop := q.errors.toList = [] ∧ (∀ token, q.peek.1 = some token → token.kind = .semicolon) ∧
  (∃ mid rest, Round stack (ofText text) (some tree) mid ∧ mid.errors.toList = [] ∧ trees = tree :: rest ∧
    parseAll stack mid = .ok rest r) ∧
  (Intact stack (ofText text) → Leads stack (Scanner.tokenize text).1 [tree] [] trees r.errors.toList)

/-- A token is behind the first expression that cannot be there: the first error of the whole stands at it, and the
    chunk gives no tree. -/
def Interrupted : Prop := q.errors.toList = [] ∧ ∃ token, q.peek.1 = some token ∧ token.kind ≠ .semicolon ∧
  ∃ error, error.token = token ∧ error.complaint.message = "Expect ';' after expression." ∧
    r.errors.toList.head? = some error ∧ Barren stack (ofText text) trees r ∧
    (Intact stack (ofText text) →
      ∃ more, Leads stack (Scanner.tokenize text).1 [] (error :: more) trees r.errors.toList)

end

section

variable {stack : Stack} {text : String} {q : Parser} {tree : Expr} {r : Parser} {trees : List Expr}

theorem Refused.errors_ne_nil (h : Refused stack text q r trees) : q.errors.toList ≠ [] := by
  obtain ⟨error, recorded, -⟩ := h
  rw [recorded]
  exact List.cons_ne_nil _ _

theorem Accepted.not_interrupted (h : Accepted stack text q tree r trees) : ¬Interrupted stack text q r trees := by
  rintro ⟨-, token, next, other, -⟩
  exact other (h.2.1 token next)

theorem exactlyOne
    (h : Refused stack text q r trees ∨ Accepted stack text q tree r trees ∨ Interrupted stack text q r trees) :
    ExactlyOne (Refused stack text q r trees) (Accepted stack text q tree r trees)
      (Interrupted stack text q r trees) := by
  rcases h with refused | accepted | interrupted
  · exact .inl ⟨refused, fun h => refused.errors_ne_nil h.1, fun h => refused.errors_ne_nil h.1⟩
  · exact .inr (.inl ⟨fun h => h.errors_ne_nil accepted.1, accepted, accepted.not_interrupted⟩)
  · exact .inr (.inr ⟨fun h => h.errors_ne_nil interrupted.1, fun h => h.not_interrupted interrupted, interrupted⟩)

/-- The tree and the error of the first round come first in the whole. -/
theorem parseAll_of_round {tree : Option Expr} (first : Round stack (ofText text) tree r) : ∃ more trees last errors,
    parseAll stack (ofText text) = .ok (tree.toList ++ trees) last ∧ parseAll stack r = .ok trees last ∧
      last.errors.toList = r.errors.toList ++ errors ∧
      (Intact stack (ofText text) → Leads stack (Scanner.tokenize text).1 tree.toList (r.errors.toList ++ more)
        (tree.toList ++ trees) last.errors.toList) := by
  have start : (ofText text).unread <:+ (Scanner.tokenize text).1 := unread_ofText text ▸ List.suffix_refl _
  have readable := readable_of_suffix start
  obtain ⟨trees, q, run⟩ := exists_parseAll stack readable
  obtain ⟨last, rounds, ended⟩ := parseAll_eq_ok_iff.mp run
  cases rounds with
  | refl => exact absurd (unread_of_peek_none ended) first.unread_ne_nil
  | round first' rest =>
    obtain ⟨rfl, rfl⟩ := first.unique first'
    have same : q.errors = last.errors := (Moves.look ended).errors_eq
    have behind := parseAll_eq_ok_iff.mpr ⟨last, rest, ended⟩
    by_cases intact : Intact stack (ofText text)
    · obtain ⟨errors', recorded', reads⟩ :=
        rest.reads (intact.behind first) (first.suffix intact start) (unread_of_peek_none ended)
      obtain ⟨⟨inside, stop⟩, after, cuts⟩ := exists_cut (endOf (Scanner.tokenize text).1) (ofText text).unread
      obtain ⟨errors, more, further, recorded, rfl, result, reads⟩ := first.reads_behind intact start cuts reads
      obtain rfl : r.errors.toList = errors := recorded
      refine ⟨more, _, q, _, run, behind, same ▸ recorded', fun _ => ?_⟩
      rw [same, recorded', ← List.append_assoc]
      exact .intro cuts result reads
    · obtain ⟨errors, recorded⟩ := rest.errors (first.readable readable)
      exact ⟨[], _, q, errors, run, behind, same ▸ recorded, fun h => absurd h intact⟩

end

/-- Reading the first expression of a text that does not begin with a semicolon, and reading all of it, exactly one of
    three cases holds. -/
theorem parse_parseAll_agree (stack : Stack) (text : String) {first : Token}
    (head : (Scanner.tokenize text).1.head? = some first) (other : first.kind ≠ .semicolon) : ∃ tree q trees r,
    parse stack (ofText text) = .ok tree q ∧ parseAll stack (ofText text) = .ok trees r ∧
      ExactlyOne (Refused stack text q r trees) (Accepted stack text q tree r trees)
        (Interrupted stack text q r trees) := by
  have readable : (ofText text).Readable := readable_of_suffix (List.suffix_refl _)
  obtain ⟨tokens, whole⟩ := List.head?_eq_some_iff.mp head
  obtain ⟨start, next, -⟩ := peek_of_cons ((unread_ofText text).trans whole)
  have look := Moves.look next
  rcases parse_cases stack readable with ⟨_, none, -⟩ | ⟨token, start', next', cases⟩
  · rw [next] at none
    cases none
  · rw [next] at next'
    cases next'
    rcases cases with ⟨tree, q, tried, read, run⟩ | ⟨error, q, tried, failed, run⟩
    · have clean : q.errors.toList = [] := by
        have same : q.errors = start.errors := tried.errors_eq
        rw [same, look.errors_nil]
      rcases statement_of_read read with ⟨ending, mid, more, ends, stated⟩ |
          ⟨token, tokens, mid, more, ahead, another, stated⟩
      · have round : Round stack (ofText text) (some tree) mid := .statement next other (by rw [recovering, stated])
        obtain ⟨_, trees, r, errors, run', behind, -, leads⟩ := parseAll_of_round round
        have still : mid.errors.toList = [] := by rw [more.errors_eq, clean]
        refine ⟨tree, q, _, r, run, run', exactlyOne (.inr (.inl
          ⟨clean, ?_, ⟨mid, trees, round, still, rfl, behind⟩, fun intact => ?_⟩))⟩
        · intro token ahead
          rw [head?_unread, more.unread_eq] at ahead
          rcases ends with ⟨rfl, none⟩ | ⟨stop, rfl, closes⟩
          · rw [none] at ahead
            cases ahead
          · cases ahead
            exact closes
        · have lead := leads intact
          rwa [lead.errors_eq_nil] at lead
      · have round : Round stack (ofText text) none _ := .statement next other (by rw [recovering, stated])
        obtain ⟨more', trees, r, errors, run', -, recorded, leads⟩ := parseAll_of_round round
        have barren := round.barren readable (halts_synchronize _) run'
        rw [errors_recovered more, clean] at recorded leads
        have peeked : q.peek.1 = some token := by rw [head?_unread, more.unread_same, ahead]; rfl
        refine ⟨tree, q, _, r, run, run', exactlyOne (.inr (.inr ⟨clean, token, peeked, another,
          ⟨token, .expectSemicolon⟩, rfl, rfl, ?_, barren, fun intact => ⟨more', leads intact⟩⟩))⟩
        rw [recorded]
        rfl
    · have recorded : (q.record error).synchronize.errors.toList = [error] := by
        have same : q.errors = start.errors := tried.errors_eq
        rw [errors_recovered (.refl q), same, look.errors_nil]
        rfl
      have stated : statement stack start = .error (.syntaxError error) q := bind_of_error failed
      have round : Round stack (ofText text) none _ := .statement next other (by rw [recovering, stated])
      obtain ⟨more, trees, r, errors, run', -, recorded', leads⟩ := parseAll_of_round round
      have barren := round.barren readable (halts_synchronize _) run'
      rw [recorded] at recorded' leads
      refine ⟨_, _, _, r, run, run', exactlyOne (.inl
        ⟨error, recorded, ?_, barren, fun intact => ⟨more, leads intact⟩⟩)⟩
      rw [recorded']
      rfl

theorem parse_parseAll_agree_interrupted : ∃ tree q trees r, parse .standard (ofText "1 + 2 3; 4") = .ok tree q ∧
    parseAll .standard (ofText "1 + 2 3; 4") = .ok trees r ∧ Interrupted .standard "1 + 2 3; 4" q r trees := by
  have head : (Scanner.tokenize "1 + 2 3; 4").1.head? = some ⟨.number, "1", 1⟩ := by decide +kernel
  obtain ⟨tree, q, trees, r, run, run', cases⟩ := parse_parseAll_agree .standard "1 + 2 3; 4" head (by decide)
  have behind : (match parse .standard (ofText "1 + 2 3; 4") with
      | .ok _ q => (q.errors.toList, q.peek.1)
      | .error _ _ => ([], none)) = ([], some ⟨.number, "3", 1⟩) := by decide +kernel
  rw [run] at behind
  obtain ⟨errors, next⟩ := Prod.mk.inj behind
  rcases cases with ⟨refused, -⟩ | ⟨-, accepted, -⟩ | ⟨-, -, interrupted⟩
  · exact absurd errors refused.errors_ne_nil
  · exact absurd (accepted.2.1 _ next) (by decide)
  · exact ⟨tree, q, trees, r, run, run', interrupted⟩

end Parser

end ExprLang
