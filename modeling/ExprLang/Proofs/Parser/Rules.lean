import ExprLang.Proofs.Parser.Unread
import ExprLang.Proofs.Syntax.Grammar

/-! # What the rules read

First every rule is described by the one step it takes before it calls another (`primary_cases`, `signed_cases`,
`continued_cases`). From these steps alone follow the two halves of correctness. Soundness: a rule of a level returns a
tree that the tokens it used derive, read as far as it goes, or is stuck where the grammar is, or the room ends where
the tokens used are too deep (`Meets`). Completeness: whatever the grammar derives and the room allows is read
(`Derives.run`). -/

namespace ExprLang.Parser

open Syntax

namespace Rule

/-! ### Steps -/

/-- What follows an opening parenthesis. -/
def enclosed (unary : Rule) : Work Expr := do
  let inner ← unary.equality.run
  let _ ← consume .rightParen .expectClosingParen
  return .grouping inner

/-- What is left to try where no leaf stands in front. -/
def parenthesized (unary : Rule) : Work Expr := do
  match ← modifyGet (take [.leftParen]) with
  | some _ => unary.enclosed
  | none => fail .expectExpression

theorem primary_cases (unary : Rule) (p : Parser) :
    (∃ token value q, leaf? token = some value ∧ Moves p [token] q ∧ unary.primary.run p = literal value q) ∨
      (∃ opening q, opening.kind = .leftParen ∧ Moves p [opening] q ∧ q.lookahead = none ∧
        unary.primary.run p = unary.enclosed q) ∨
      ∃ q, q.Lacks (·.kind ∈ Level.primary.starters) ∧ Moves p [] q ∧
        unary.primary.run p = .error (.syntaxError ⟨q.upcoming, .expectExpression⟩) q := by
  rcases takeMap_cases leaf? p with ⟨token, value, q, found, moves, -, eq⟩ | ⟨q, lacks, moves, eq⟩
  · refine .inl ⟨token, value, q, found, moves, ?_⟩
    exact bind_of_ok (modifyGet_eq eq)
  · have skipped : unary.primary.run p = unary.parenthesized q := bind_of_ok (modifyGet_eq eq)
    rcases take_cases [.leftParen] q with ⟨opening, r, member, more, fresh, eq'⟩ | ⟨r, lacks', more, eq'⟩
    · refine .inr (.inl ⟨opening, r, List.mem_singleton.mp member, moves.trans more, fresh, ?_⟩)
      rw [skipped, parenthesized, bind_of_ok (modifyGet_eq eq')]
    · obtain ⟨last, still, failed⟩ := fail_cases (α := Expr) .expectExpression r
      refine .inr (.inr ⟨last, ?_, (moves.trans more).trans still, ?_⟩)
      · intro token head starter
        have before := still.unread_same
        have first := more.unread_same
        have no_leaf : leaf? token = none := by
          cases found : leaf? token with
          | none => rfl
          | some value => exact absurd ⟨value, found⟩ (lacks token (by rw [first, before, head]))
        have no_paren := lacks' token (by rw [before, head])
        rcases List.mem_append.mp starter with member | member
        · exact leaf?_eq_none_iff.mp no_leaf member
        · exact no_paren member
      · rw [skipped, parenthesized, bind_of_ok (modifyGet_eq eq')]
        exact failed

theorem signed_cases (needs : Scanner.Needs) (room : Nat) (operand : Stack.Opener → Rule) (p : Parser) :
    (p.lookahead = none ∧ room < needs.most ∧ ∃ shortage q, pull needs room p = .error (.stackOverflow shortage) q ∧
      (signed needs room operand).run p = .error (.stackOverflow shortage) q) ∨
      (p.lookahead = none → needs.gap ≤ room) ∧
        ((∃ operator q, operator.kind ∈ signs ∧ Moves p [operator] q ∧ q.lookahead = none ∧
          (signed needs room operand).run p =
            ((operand .sign).run >>= fun inner => pure (Expr.unary operator inner)) q) ∨
        ∃ q, q.Lacks (·.kind ∈ signs) ∧ Moves p [] q ∧
          (signed needs room operand).run p = (operand .paren).primary.run q) := by
  rcases pull_cases needs room p with ⟨q, pulled, look, enough⟩ | ⟨fresh, short, shortage, q, pulled⟩
  · refine .inr ⟨enough, ?_⟩
    rcases take_cases [.minus, .exclamation] q with ⟨operator, r, member, moves, fresh, eq⟩ | ⟨r, lacks, moves, eq⟩
    · refine .inl ⟨operator, r, member, look.trans moves, fresh, ?_⟩
      exact (bind_of_ok pulled).trans (bind_of_ok (modifyGet_eq eq))
    · refine .inr ⟨r, lacks, look.trans moves, ?_⟩
      exact (bind_of_ok pulled).trans (bind_of_ok (modifyGet_eq eq))
  · exact .inl ⟨fresh, short, shortage, q, pulled, bind_of_error pulled⟩

theorem continued_of_none {operand : Rule} {kinds : List Kind} {left : Expr} {p q : Parser}
    (h : p.take kinds = (none, q)) : operand.continued kinds left p = .ok left q := by
  rw [continued]
  split
  · next none =>
    rw [h] at none
    cases none
    rfl
  · next found => rw [h] at found; cases found

theorem continued_of_some {operand : Rule} {kinds : List Kind} {left : Expr} {p q : Parser} {operator : Token}
    (h : p.take kinds = (some operator, q)) : operand.continued kinds left p =
      (operand.run >>= fun right => operand.continued kinds (.binary left operator right)) q := by
  rw [continued]
  split
  · next none => rw [h] at none; cases none
  · next found =>
    rw [h] at found
    cases found
    split
    · next read => rw [bind_of_error read]
    · next read => rw [bind_of_ok read]

theorem continued_cases (operand : Rule) (kinds : List Kind) (left : Expr) (p : Parser) :
    (∃ operator q, operator.kind ∈ kinds ∧ Moves p [operator] q ∧ operand.continued kinds left p =
      (operand.run >>= fun right => operand.continued kinds (.binary left operator right)) q) ∨
      ∃ q, q.Lacks (·.kind ∈ kinds) ∧ Moves p [] q ∧ operand.continued kinds left p = .ok left q := by
  rcases take_cases kinds p with ⟨operator, q, member, moves, -, eq⟩ | ⟨q, lacks, moves, eq⟩
  · exact .inl ⟨operator, q, member, moves, continued_of_some eq⟩
  · exact .inr ⟨q, lacks, moves, continued_of_none eq⟩

end Rule

/-! ### Soundness -/

/-- Every leaf ahead has a value. -/
theorem Readable.leaf {p : Parser} {token : Token} {value : Except Token.NotANumber Literal} (readable : p.Readable)
    (member : token ∈ p.unread) (found : Rule.leaf? token = some value) : ∃ payload, value = .ok payload := by
  cases value with
  | ok payload => exact ⟨payload, rfl⟩
  | error fault =>
    obtain ⟨kind, unreadable⟩ := of_leaf?_eq_error found
    obtain ⟨number, read⟩ := readable token member kind
    rw [unreadable] at read
    cases read

/-- What a rule of a level may do with some room: read a tree that the grammar derives, be stuck where the grammar is, or
    come to the end of the room where the tokens used are too deep. -/
inductive Outcome (stack : Stack) (level : Level) (room : Nat) (p : Parser) :
    EStateM.Result Failure Parser Expr → Prop
  | read {q : Parser} {used : List Token} {tree : Expr} (moves : Moves p used q) (derives : Derives level used tree)
    (fits : tree.frames stack + stack.needs.gap ≤ room) (stops : level.Stops q.unread) :
    Outcome stack level room p (.ok tree q)
  | stuck {q : Parser} {used : List Token} {complaint : Complaint} (moves : Moves p used q)
    (stuck : Stuck level used q.ahead complaint) :
    Outcome stack level room p (.error (.syntaxError ⟨q.upcoming, complaint⟩) q)
  | overflow {mid q : Parser} {used : List Token} {shortage : Scanner.Shortage} {left : Nat} (moves : Moves p used mid)
    (deep : Deep stack level room used) (ended : pull stack.needs left mid = .error (.stackOverflow shortage) q) :
    Outcome stack level room p (.error (.stackOverflow shortage) q)

/-- With this much room the rule reads the level in the grammar's sense. Where there is not enough even for a gap, a
    token must not have been pulled before. -/
def Rule.Meets (stack : Stack) (rule : Rule) (level : Level) (room : Nat) : Prop :=
  ∀ p : Parser, p.Readable → (p.lookahead = none ∨ stack.needs.gap ≤ room) → Outcome stack level room p (rule.run p)

namespace Rule

variable {stack : Stack} {level : Level} {room : Nat}

/-- The loop of a binary level, behind an expression of the level. -/
theorem continued_outcome {operand : Rule} (meets : operand.Meets stack level.tighter room) {p : Parser} (n : Nat) :
    ∀ {q : Parser} {left : Expr} {lefts : List Token}, q.unread.length < n → q.Readable → Moves p lefts q →
      Derives level lefts left → left.frames stack + stack.needs.gap ≤ room → level.tighter.Stops q.unread →
      Outcome stack level room p (operand.continued level.operators left q) := by
  induction n with
  | zero => exact fun short => absurd short (Nat.not_lt_zero _)
  | succ n ih =>
    intro q left lefts short readable moves derives fits stops
    rcases continued_cases operand level.operators left q with ⟨operator, r, member, more, eq⟩ | ⟨r, lacks, more, eq⟩
    · have outcome := meets r (more.readable readable) (.inr (Nat.le_trans (Nat.le_add_left _ _) fits))
      generalize read : operand.run r = result at outcome
      cases outcome with
      | @read last rights right further derives' fits' stops' =>
        rw [eq, bind_of_ok read]
        refine ih ?_ (further.readable (more.readable readable)) ?_ (.binary member derives derives') ?_ stops'
        · have := congrArg List.length (more.unread_eq.trans (congrArg _ further.unread_eq))
          simp only [List.length_append, List.length_singleton] at this
          omega
        · exact moves.trans (more.trans further)
        · simp only [Expr.frames]
          omega
      | stuck further stuck =>
        rw [eq, bind_of_error read]
        exact .stuck (moves.trans (more.trans further)) (.right member derives stuck)
      | overflow further deep ended =>
        rw [eq, bind_of_error read]
        exact .overflow (moves.trans (more.trans further)) (.right member derives fits deep) ended
    · have same := more.unread_same
      rw [eq]
      refine .read (List.append_nil lefts ▸ moves.trans more) derives fits ?_
      intro token head member
      rw [Level.absorbed_eq, List.mem_append] at member
      rcases member with member | member
      · exact lacks token head member
      · exact stops token (same ▸ head) member

theorem Meets.chain {operand : Rule} (level : Level) (levels : level.operators ≠ [])
    (meets : operand.Meets stack level.tighter room) : (operand.chain level.operators).Meets stack level room := by
  intro p readable ready
  have outcome := meets p readable ready
  show Outcome stack level room p ((operand.run >>= operand.continued level.operators) p)
  generalize read : operand.run p = result at outcome
  cases outcome with
  | read moves derives fits stops =>
    rw [bind_of_ok read]
    have lower : level ≠ .primary := by
      rintro rfl
      exact levels rfl
    exact continued_outcome meets _ (Nat.lt_succ_self _) (moves.readable readable) moves (.operand lower derives) fits
      stops
  | stuck moves stuck =>
    rw [bind_of_error read]
    exact .stuck moves (.left levels stuck)
  | overflow moves deep ended =>
    rw [bind_of_error read]
    exact .overflow moves (.left levels deep) ended

theorem Meets.primary {unary : Rule} (meets : unary.equality.Meets stack .equality (room - stack.paren))
    (enough : stack.needs.gap ≤ room) {p : Parser} (readable : p.Readable) :
    Outcome stack .primary room p (unary.primary.run p) := by
  rcases primary_cases unary p with ⟨token, value, q, found, moves, eq⟩ | ⟨opening, q, opens, moves, fresh, eq⟩ |
      ⟨q, lacks, moves, eq⟩
  · obtain ⟨payload, rfl⟩ := readable.leaf (moves.unread_eq ▸ List.mem_cons_self) found
    rw [eq]
    refine .read moves (.leaf (leaf?_eq_ok_iff.mp found)) ?_ (Level.stops_of_absorbed_nil rfl _)
    rwa [Expr.frames, Nat.zero_add]
  · rw [eq]
    have outcome := meets q (moves.readable readable) (.inl fresh)
    generalize read : unary.equality.run q = result at outcome
    cases outcome with
    | @read r used inner more derives fits stops =>
      rw [enclosed, bind_of_ok read]
      rcases consume_cases .rightParen .expectClosingParen r with ⟨closing, last, closes, further, done⟩ |
          ⟨last, lacks, further, failed⟩
      · rw [bind_of_ok done]
        refine .read (moves.trans (more.trans further)) ?_ ?_ ?_
        · exact .grouping opens closes derives
        · have := stack.needs.gap_pos
          simp only [Expr.frames]
          omega
        · exact Level.stops_of_absorbed_nil rfl _
      · have same := further.unread_same
        rw [bind_of_error failed]
        refine .stuck (moves.trans (more.trans further)) ?_
        rw [List.append_nil]
        refine .unclosed opens derives fun kind next => ?_
        obtain ⟨token, head, rfl⟩ := Option.map_eq_some_iff.mp next
        exact ⟨lacks token head, stops token (same ▸ head)⟩
    | stuck more stuck =>
      rw [enclosed, bind_of_error read]
      exact .stuck (moves.trans more) (.inside opens stuck)
    | overflow more deep ended =>
      rw [enclosed, bind_of_error read]
      exact .overflow (moves.trans more) (.inside opens enough deep) ended
  · rw [eq]
    exact .stuck moves (.missing lacks.ahead)

theorem Meets.signed {operand : Stack.Opener → Rule}
    (meets : stack.needs.gap ≤ room → (operand .sign).Meets stack .unary (room - stack.sign))
    (meets' : stack.needs.gap ≤ room → (operand .paren).equality.Meets stack .equality (room - stack.paren)) :
    (signed stack.needs room operand).Meets stack .unary room := by
  intro p readable ready
  rcases signed_cases stack.needs room operand p with ⟨-, short, shortage, q, ended, eq⟩ |
      ⟨pulled, ⟨operator, q, member, moves, fresh, eq⟩ | ⟨q, lacks, moves, eq⟩⟩
  · rw [eq]
    exact .overflow (.refl p) (.here short) ended
  · have enough := ready.elim pulled id
    rw [eq]
    have outcome := meets enough q (moves.readable readable) (.inl fresh)
    generalize read : (operand .sign).run q = result at outcome
    cases outcome with
    | read more derives fits stops =>
      rw [bind_of_ok read]
      refine .read (moves.trans more) (.sign member derives) ?_ stops
      have := stack.needs.gap_pos
      simp only [Expr.frames]
      omega
    | stuck more stuck =>
      rw [bind_of_error read]
      exact .stuck (moves.trans more) (.sign member stuck)
    | overflow more deep ended =>
      rw [bind_of_error read]
      exact .overflow (moves.trans more) (.sign member enough deep) ended
  · have enough := ready.elim pulled id
    rw [eq]
    have outcome := (meets' enough).primary enough (moves.readable readable)
    generalize (operand .paren).primary.run q = result at outcome
    cases outcome with
    | read more derives fits stops => exact .read (moves.trans more) (.operand (by simp) derives) fits stops
    | @stuck r used complaint more stuck =>
      refine .stuck (moves.trans more) ?_
      cases stuck with
      | missing starter =>
        refine .missing fun kind next member => ?_
        have first : q.ahead = some kind := by
          rw [ahead, more.unread_eq]
          exact next
        rcases List.mem_append.mp member with sign | lead
        · exact lacks.ahead kind first sign
        · exact starter kind next lead
      | unclosed h body stop => exact .unsigned (List.cons_ne_nil _ _) (.unclosed h body stop)
      | inside h body => exact .unsigned (List.cons_ne_nil _ _) (.inside h body)
      | left levels => exact absurd rfl levels
      | right h => cases h
    | overflow more deep ended => exact .overflow (moves.trans more) (.unsigned deep) ended

theorem Meets.product {unary : Rule} (meets : unary.Meets stack .unary room) :
    unary.product.Meets stack .product room := .chain .product (by decide) meets

theorem Meets.sum {unary : Rule} (meets : unary.Meets stack .unary room) : unary.sum.Meets stack .sum room :=
  .chain .sum (by decide) meets.product

theorem Meets.comparison {unary : Rule} (meets : unary.Meets stack .unary room) :
    unary.comparison.Meets stack .comparison room := .chain .comparison (by decide) meets.sum

theorem Meets.equality {unary : Rule} (meets : unary.Meets stack .unary room) :
    unary.equality.Meets stack .equality room := .chain .equality (by decide) meets.comparison

/-- Where there is room, what is inside an operand gets the rest of it. -/
theorem unary_eq (stack : Stack) (some : 0 < room) :
    unary stack room = signed stack.needs room fun opener => unary stack (room - stack.cost opener) := by
  rw [unary]
  simp only [some, ↓reduceIte]

theorem meets_unary (stack : Stack) (room : Nat) : (unary stack room).Meets stack .unary room := by
  induction room using Nat.strongRecOn with
  | ind room ih =>
    have positive := stack.needs.gap_pos
    have signs := stack.sign_pos
    have parens := stack.paren_pos
    by_cases some : 0 < room
    · rw [unary_eq stack some]
      exact .signed (fun _ => ih (room - stack.sign) (by omega)) (fun _ => (ih (room - stack.paren) (by omega)).equality)
    · rw [unary]
      exact .signed (fun enough => absurd enough (by omega)) (fun enough => absurd enough (by omega))

end Rule

/-- Every rule of the grammar reads its level. -/
theorem Level.rule_outcome (stack : Stack) (level : Level) {p : Parser} (readable : p.Readable) :
    Outcome stack level stack.room p ((level.rule stack).run p) := by
  have enough : stack.needs.gap ≤ stack.room := Nat.le_trans stack.needs.gap_le_most stack.roomy
  have unary := Rule.meets_unary stack stack.room
  cases level with
  | unary => exact unary p readable (.inr enough)
  | product => exact unary.product p readable (.inr enough)
  | sum => exact unary.sum p readable (.inr enough)
  | comparison => exact unary.comparison p readable (.inr enough)
  | equality => exact unary.equality p readable (.inr enough)
  | primary => exact (Rule.meets_unary stack (stack.room - stack.paren)).equality.primary enough readable

/-! ### More room -/

/-- The second work does the same as the first wherever the first does not come to the end of the room. -/
def Extends {α : Type} (less more : Work α) : Prop :=
  ∀ p, less p = more p ∨ ∃ shortage q, less p = .error (.stackOverflow shortage) q

namespace Extends

variable {α β : Type}

protected theorem refl (work : Work α) : Extends work work := fun _ => .inl rfl

theorem bind {less more : Work α} {next next' : α → Work β} (h : Extends less more)
    (h' : ∀ a, Extends (next a) (next' a)) : Extends (less >>= next) (more >>= next') := by
  intro p
  rcases h p with same | ⟨shortage, q, ended⟩
  · cases ran : less p with
    | ok a q =>
      rw [bind_of_ok ran, bind_of_ok (same ▸ ran)]
      exact h' a q
    | error failure q =>
      rw [bind_of_error ran, bind_of_error (same ▸ ran)]
      exact .inl rfl
  · exact .inr ⟨shortage, q, bind_of_error ended⟩

theorem pull {needs : Scanner.Needs} {room room' : Nat} (le : room ≤ room') :
    Extends (Parser.pull needs room) (Parser.pull needs room') := by
  intro p
  cases ahead : p.lookahead with
  | some token => exact .inl (by simp [Parser.pull, ahead])
  | none =>
    cases eq : p.scanner.nextWithin needs room with
    | mk found scanner =>
      cases found with
      | ok token => exact .inl (by simp [Parser.pull, ahead, eq, Scanner.nextWithin_mono le eq])
      | error shortage => exact .inr ⟨shortage, { p with scanner }, by simp [Parser.pull, ahead, eq]⟩

theorem continued {operand operand' : Rule} (h : Extends operand.run operand'.run) (kinds : List Kind) (left : Expr) :
    Extends (operand.continued kinds left) (operand'.continued kinds left) := by
  intro p
  fun_induction Rule.continued operand kinds left p with
  | case1 left p q taken => exact .inl (Rule.continued_of_none taken).symm
  | case2 left p operator q taken failure r read =>
    rw [Rule.continued_of_some taken]
    rcases h q with same | ⟨shortage, q', ended⟩
    · exact .inl (bind_of_error (same ▸ read)).symm
    · rw [read] at ended
      cases ended
      exact .inr ⟨shortage, r, rfl⟩
  | case3 left p operator q taken right r read _ _ ih =>
    rw [Rule.continued_of_some taken]
    rcases h q with same | ⟨shortage, q', ended⟩
    · rw [bind_of_ok (same ▸ read)]
      exact ih
    · rw [read] at ended
      cases ended

section

variable {less more : Rule}

theorem chain (h : Extends less.run more.run) (kinds : List Kind) :
    Extends (less.chain kinds).run (more.chain kinds).run := h.bind (h.continued kinds)

theorem product (h : Extends less.run more.run) : Extends less.product.run more.product.run := h.chain _

theorem sum (h : Extends less.run more.run) : Extends less.sum.run more.sum.run := h.product.chain _

theorem comparison (h : Extends less.run more.run) : Extends less.comparison.run more.comparison.run := h.sum.chain _

theorem equality (h : Extends less.run more.run) : Extends less.equality.run more.equality.run := h.comparison.chain _

theorem primary (h : Extends less.run more.run) : Extends less.primary.run more.primary.run := by
  refine (Extends.refl _).bind fun value => ?_
  cases value with
  | some value => exact .refl _
  | none =>
    refine (Extends.refl _).bind fun opening => ?_
    cases opening with
    | some opening => exact h.equality.bind fun inner => .refl _
    | none => exact .refl _

end

theorem signed {needs : Scanner.Needs} {room room' : Nat} {operand operand' : Stack.Opener → Rule} (le : room ≤ room')
    (h : ∀ opener, Extends (operand opener).run (operand' opener).run) :
    Extends (Rule.signed needs room operand).run (Rule.signed needs room' operand').run := by
  refine (pull le).bind fun _ => (Extends.refl _).bind fun operator => ?_
  cases operator with
  | some operator => exact (h .sign).bind fun inner => .refl _
  | none => exact (h .paren).primary

end Extends

namespace Rule

theorem exhausted_extends (rule : Rule) : Extends exhausted.run rule.run := fun p => .inr ⟨.before, p, rfl⟩

theorem unary_extends (stack : Stack) {room room' : Nat} (le : room ≤ room') :
    Extends (unary stack room).run (unary stack room').run := by
  induction room using Nat.strongRecOn generalizing room' with
  | ind room ih =>
    rw [unary, unary]
    refine Extends.signed le fun opener => ?_
    have positive := stack.cost_pos opener
    by_cases some : 0 < room
    · rw [if_pos some, if_pos (by omega)]
      exact ih _ (by omega) (by omega)
    · rw [if_neg some]
      exact exhausted_extends _

end Rule

/-- More room changes what a rule does only where it came to the end of the room. -/
theorem Level.ruleWithin_extends (stack : Stack) (level : Level) {room room' : Nat} (le : room ≤ room') :
    Extends (level.ruleWithin stack room).run (level.ruleWithin stack room').run := by
  have unary := Rule.unary_extends stack le
  cases level with
  | unary => exact unary
  | product => exact unary.product
  | sum => exact unary.sum
  | comparison => exact unary.comparison
  | equality => exact unary.equality
  | primary => exact (Rule.unary_extends stack (Nat.sub_le_sub_right le stack.paren)).primary

end ExprLang.Parser
