import ExprLang.Parser.Operation
import ExprLang.Proofs.Lexical.Diagnostics
import ExprLang.Proofs.Parser.First

/-! # No token is lost

Whatever is asked of a parser, and in whatever order, it comes down to a few steps: it looks at the next token, uses it,
passes over it, records an error, or comes to the end of the room (`Step`). Each step but one keeps the balance between
the tokens consumed, the one ahead and those the scanner still has, and between these and what the scanner has reported;
the one that does not is the end of the room inside a token. What comes of rules, of statements and of rounds are such
steps, and the replies tell which tokens were consumed (`perform_replies`). So the balance holds after any sequence of
requests in which the room never ends inside a token (`performAll_conserves`). -/

namespace ExprLang.Parser

open Lexical Syntax

/-! ### Steps -/

/-- One step of a parser and the tokens it consumes. Only using a token makes it the current one. A lossy parser may come
    to the end of the room inside a token. -/
inductive Step (lossy : Bool) : Parser → List Token → Parser → Prop
  | look {p q : Parser} {token : Option Token} (h : p.peek = (token, q)) : Step lossy p [] q
  | use {p q : Parser} {token : Token} (h : p.peek = (some token, q)) : Step lossy p [token] (q.shift token)
  | pass {p q : Parser} {token : Token} (h : p.peek = (some token, q)) :
    Step lossy p [token] { q with lookahead := none }
  | record (p : Parser) (error : SyntaxError) : Step lossy p [] (p.record error)
  | stop {p q : Parser} {needs : Scanner.Needs} {room : Nat}
    (h : pull needs room p = .error (.stackOverflow .before) q) : Step lossy p [] q
  | lose {p q : Parser} {needs : Scanner.Needs} {room : Nat} (may : lossy = true)
    (h : pull needs room p = .error (.stackOverflow .inside) q) : Step lossy p [] q

/-- Steps one after another, and the tokens they consume in order. -/
inductive Run (lossy : Bool) : Parser → List Token → Parser → Prop
  | refl (p : Parser) : Run lossy p [] p
  | step {p q r : Parser} {used more : List Token} (first : Step lossy p used q) (rest : Run lossy q more r) :
    Run lossy p (used ++ more) r

/-- The scanner has reported what is wrong with the tokens taken from it, the consumed ones and the one ahead. -/
def Reported (consumed : List Token) (p : Parser) : Prop :=
  p.scanner.diagnostics.toList = (consumed ++ p.lookahead.toList).flatMap faults

variable {lossy : Bool} {p q r : Parser} {used more consumed : List Token}

theorem Reported.peek {token : Option Token} (h : Reported consumed p) (eq : p.peek = (token, q)) :
    Reported consumed q := by
  unfold Parser.peek at eq
  split at eq
  · cases eq
    exact h
  · next none_ahead =>
    cases next : p.scanner.next with
    | mk found scanner =>
      rw [next] at eq
      cases eq
      simp only [Reported, none_ahead, Option.toList_none, List.append_nil] at h ⊢
      cases token with
      | none => simp [Scanner.diagnostics_of_next_none next, h]
      | some token => simp [Scanner.diagnostics_of_next_some next, h]

theorem lookahead_of_peek {token : Option Token} (h : p.peek = (token, q)) : q.lookahead = token := by
  have := lookahead_peek p
  rwa [h] at this

namespace Step

theorem unread_eq (h : Step false p used q) : p.unread = used ++ q.unread := by
  cases h with
  | look h =>
    have := unread_peek p
    rw [h] at this
    exact this.symm
  | use h => exact unread_shift h
  | pass h => exact unread_shift h
  | record => rfl
  | stop h => exact (unread_of_pull_before h).symm
  | lose may => cases may

theorem current_cases (h : Step lossy p used q) : q.current = p.current ∨ used = [q.current] := by
  cases h with
  | look h | pass h =>
    have := current_peek p
    rw [h] at this
    exact .inl this
  | use h => exact .inr rfl
  | record => exact .inl rfl
  | stop h | lose _ h =>
    obtain ⟨-, t, -, rfl⟩ := of_pull_error h
    exact .inl rfl

theorem errors_prefix (h : Step lossy p used q) : p.errors.toList <+: q.errors.toList := by
  cases h with
  | look h | use h | pass h =>
    have same := errors_peek p
    rw [h] at same
    exact same ▸ List.prefix_rfl
  | record error => simp [Parser.record]
  | stop h | lose _ h =>
    obtain ⟨-, t, -, rfl⟩ := of_pull_error h
    exact List.prefix_rfl

theorem reported (h : Step false p used q) (before : Reported consumed p) : Reported (consumed ++ used) q := by
  cases h with
  | look h =>
    rw [List.append_nil]
    exact before.peek h
  | use h | pass h =>
    have seen := before.peek h
    rw [Reported, lookahead_of_peek h] at seen
    simp only [Reported, shift, seen, Option.toList_none, List.append_nil]
    rfl
  | record =>
    rw [List.append_nil]
    exact before
  | stop h =>
    obtain ⟨ahead, diagnostics⟩ := reports_of_pull_before h
    rw [List.append_nil, Reported, ahead, diagnostics]
    exact before
  | lose may => cases may

/-- What loses nothing may be done where something may be lost. -/
theorem mono (h : Step false p used q) : Step lossy p used q := by
  cases h with
  | look h => exact .look h
  | use h => exact .use h
  | pass h => exact .pass h
  | record error => exact .record p error
  | stop h => exact .stop h
  | lose may => cases may

end Step

namespace Run

theorem of_step (h : Step lossy p used q) : Run lossy p used q := by
  rw [← List.append_nil used]
  exact .step h (.refl q)

theorem trans (h : Run lossy p used q) (h' : Run lossy q more r) : Run lossy p (used ++ more) r := by
  induction h with
  | refl => exact h'
  | step first _ ih =>
    rw [List.append_assoc]
    exact .step first (ih h')

theorem of_moves (h : Moves p used q) : Run lossy p used q := by
  induction h with
  | refl p => exact .refl p
  | peek look _ ih => exact .step (.look look) ih
  | shift look _ ih => exact .step (.use look) ih

theorem mono (h : Run false p used q) : Run lossy p used q := by
  induction h with
  | refl p => exact .refl p
  | step first _ ih => exact .step first.mono ih

theorem unread_eq (h : Run false p used q) : p.unread = used ++ q.unread := by
  induction h with
  | refl => rfl
  | step first _ ih => rw [first.unread_eq, ih, List.append_assoc]

theorem errors_prefix (h : Run lossy p used q) : p.errors.toList <+: q.errors.toList := by
  induction h with
  | refl => exact List.prefix_rfl
  | step first _ ih => exact first.errors_prefix.trans ih

theorem reported (h : Run false p used q) : ∀ {consumed}, Reported consumed p → Reported (consumed ++ used) q := by
  induction h with
  | refl =>
    intro consumed before
    rwa [List.append_nil]
  | step first _ ih =>
    intro consumed before
    rw [← List.append_assoc]
    exact ih (first.reported before)

end Run

/-! ### Work that notes what it consumes -/

/-- Steps that make every token they consume the current one. -/
structure Noted (lossy : Bool) (p : Parser) (used : List Token) (q : Parser) : Prop where
  run : Run lossy p used q
  current : q.current = used.getLastD p.current

namespace Noted

theorem refl (p : Parser) : Noted lossy p [] p := ⟨.refl p, rfl⟩

theorem trans (h : Noted lossy p used q) (h' : Noted lossy q more r) : Noted lossy p (used ++ more) r := by
  refine ⟨h.run.trans h'.run, ?_⟩
  simp only [h'.current, h.current, List.getLastD_eq_getLast?, List.getLast?_append, Option.getD_or]

theorem of_moves (h : Moves p used q) : Noted lossy p used q := ⟨.of_moves h, h.current_eq⟩

theorem record (p : Parser) (error : SyntaxError) : Noted lossy p [] (p.record error) :=
  ⟨.of_step (.record p error), rfl⟩

/-- Where the room ends, nothing is consumed. -/
theorem of_pull {needs : Scanner.Needs} {room : Nat} {shortage : Scanner.Shortage}
    (h : pull needs room p = .error (.stackOverflow shortage) q) (may : lossy = true ∨ shortage = .before) :
    Noted lossy p [] q := by
  obtain ⟨-, t, -, rfl⟩ := of_pull_error h
  cases shortage with
  | before => exact ⟨.of_step (.stop h), rfl⟩
  | inside => exact ⟨.of_step (.lose (may.resolve_right Scanner.Shortage.noConfusion) h), rfl⟩

/-- Recording an error and recovering from it, some token is dropped if any is left. -/
theorem recover (lossy : Bool) (p : Parser) (error : SyntaxError) :
    ∃ used, Noted lossy p used (p.record error).synchronize ∧ (used = [] → p.unread = []) := by
  obtain ⟨used, moves, ended, -⟩ := (p.record error).synchronize_moves
  exact ⟨[] ++ used, (record p error).trans (of_moves moves), ended⟩

end Noted

/-! ### Expressions and statements -/

section

variable {stack : Stack} {result : EStateM.Result Failure Parser Expr}

theorem Attempt.noted {α : Type} {level : Level} {good : List Token → α → Prop}
    {result : EStateM.Result Failure Parser α} (h : Attempt stack level good p result)
    (may : lossy = true ∨ ∀ q, result ≠ .error (.stackOverflow .inside) q) :
    ∃ used, Noted lossy p used (behind result) ∧ (∀ a q, result = .ok a q → good used a) ∧
      ∀ error q, result = .error (.syntaxError error) q → error.token = q.upcoming := by
  cases h with
  | done moves well => exact ⟨_, .of_moves moves, by rintro _ _ ⟨⟩; exact well, by rintro _ _ ⟨⟩⟩
  | refused moves => exact ⟨_, .of_moves moves, by rintro _ _ ⟨⟩, by rintro _ _ ⟨⟩; rfl⟩
  | @overflow mid last used shortage _ _ moves deep ended =>
    have allowed : lossy = true ∨ shortage = .before := by
      refine may.imp_right fun intact => ?_
      cases shortage with
      | before => rfl
      | inside => exact absurd rfl (intact last)
    exact ⟨_, (Noted.of_moves moves).trans (.of_pull ended allowed), by rintro _ _ ⟨⟩, by rintro _ _ ⟨⟩⟩

theorem Tried.noted (h : Tried stack p result) (may : lossy = true ∨ ¬Tears (expression stack).run p) :
    ∃ used, Noted lossy p used (behind result) ∧ (∀ tree q, result = .ok tree q → Derives .equality used tree) ∧
      (∀ error q, result = .error (.syntaxError error) q → error.token = q.upcoming) ∧
      (used = [] → (behind result).unread = p.unread) := by
  cases h with
  | read moves derives =>
    exact ⟨_, .of_moves moves, by rintro _ _ ⟨⟩; exact derives, by rintro _ _ ⟨⟩, fun none => absurd none derives.ne_nil⟩
  | stuck moves =>
    refine ⟨_, .of_moves moves, by rintro _ _ ⟨⟩, by rintro _ _ ⟨⟩; rfl, ?_⟩
    rintro rfl
    exact moves.unread_same.symm
  | tooDeep moves =>
    exact ⟨_, .of_moves moves, by rintro _ _ ⟨⟩, by rintro _ _ ⟨⟩; rfl,
      fun none => absurd none (List.append_ne_nil_of_right_ne_nil _ (List.cons_ne_nil _ _))⟩
  | torn moves _ ended look tears =>
    have allowed := may.resolve_right (not_not_intro tears)
    refine ⟨_, (Noted.of_moves moves).trans ((Noted.of_pull ended (.inl allowed)).trans (.of_moves look)),
      by rintro _ _ ⟨⟩, by rintro _ _ ⟨⟩; rfl, fun none => ?_⟩
    exact absurd (List.append_eq_nil_iff.mp none).1 (List.append_ne_nil_of_right_ne_nil _ (List.cons_ne_nil _ _))

theorem Stated.noted (h : Stated stack p result) (may : lossy = true ∨ ¬Tears (expression stack).run p) :
    ∃ used, Noted lossy p used (behind result) ∧
      (used = [] → (behind result).unread = p.unread ∧ ∀ tree q, result ≠ .ok tree q) := by
  cases h with
  | read moves derives =>
    exact ⟨_, .of_moves moves, fun none => absurd (List.append_eq_nil_iff.mp none).1 derives.ne_nil⟩
  | interrupted moves derives => exact ⟨_, .of_moves moves, fun none => absurd none derives.ne_nil⟩
  | refused tried =>
    obtain ⟨used, noted, -, -, still⟩ := tried.noted may
    exact ⟨used, noted, fun none => ⟨still none, by rintro _ _ ⟨⟩⟩⟩

/-- A round consumes a token, be it one that was refused. -/
theorem Round.noted {tree : Option Expr} (h : Round stack p tree q) (readable : p.Readable)
    (may : lossy = true ∨ Intact stack p) : ∃ used, used ≠ [] ∧ Noted lossy p used q := by
  cases h with
  | separator next => exact ⟨_, List.cons_ne_nil _ _, .of_moves (.one next)⟩
  | @statement start _ _ _ next other ran =>
    have look := Moves.look next
    have here : lossy = true ∨ ¬Tears (expression stack).run start := may.imp_right fun intact => intact.here next other
    rcases recovering_cases stack (look.readable readable) with ⟨tree, r, stated, eq⟩ | ⟨error, mid, stated, eq⟩
    · rw [ran] at eq
      cases eq
      obtain ⟨used, noted, still⟩ := stated.noted here
      exact ⟨used, fun none => (still none).2 _ _ rfl, (Noted.of_moves look).trans noted⟩
    · rw [ran] at eq
      cases eq
      obtain ⟨used, noted, still⟩ := stated.noted here
      obtain ⟨dropped, recovered, ended⟩ := Noted.recover lossy mid error
      refine ⟨used ++ dropped, fun none => ?_, (Noted.of_moves look).trans (noted.trans recovered)⟩
      obtain ⟨unused, undropped⟩ := List.append_eq_nil_iff.mp none
      have same : mid.unread = start.unread := (still unused).1
      exact unread_ne_nil_of_peek next (look.unread_same.trans (same.symm.trans (ended undropped)))

theorem Rounds.noted {trees : List Expr} (h : Rounds stack p trees q) :
    p.Readable → (lossy = true ∨ Intact stack p) → ∃ used, Noted lossy p used q := by
  induction h with
  | refl p => exact fun _ _ => ⟨[], .refl p⟩
  | round first _ ih =>
    intro readable may
    obtain ⟨used, -, noted⟩ := first.noted readable may
    obtain ⟨more, noted'⟩ := ih (first.readable readable) (may.imp_right fun intact => intact.behind first)
    exact ⟨used ++ more, noted.trans noted'⟩

theorem parseAll_noted {trees : List Expr} (run : parseAll stack p = .ok trees q) (readable : p.Readable)
    (may : lossy = true ∨ Intact stack p) : (∃ used, Noted lossy p used q) ∧ q.unread = [] := by
  obtain ⟨last, rounds, ended⟩ := parseAll_eq_ok_iff.mp run
  obtain ⟨used, noted⟩ := rounds.noted readable may
  have look := Moves.look ended
  exact ⟨⟨_, noted.trans (.of_moves look)⟩, look.unread_same ▸ unread_of_peek_none ended⟩

/-- Reading the first expression, some token is consumed if any is left. -/
theorem parse_noted {tree : Expr} (run : parse stack p = .ok tree q) (readable : p.Readable)
    (may : lossy = true ∨ ¬Tears (expression stack).run p.peek.2) : ∃ used, Noted lossy p used q ∧
      (tree = .illegal ∨ Derives .equality used tree) ∧ (p.unread ≠ [] → used ≠ []) := by
  rcases parse_cases stack readable with ⟨r, next, eq⟩ |
      ⟨token, start, next, ⟨tree, r, tried, -, eq⟩ | ⟨error, r, tried, -, eq⟩⟩
  · rw [run] at eq
    cases eq
    exact ⟨[], .of_moves (.look next), .inl rfl, fun filled => absurd (unread_of_peek_none next) filled⟩
  · rw [run] at eq
    cases eq
    rw [next] at may
    obtain ⟨used, noted, read, -⟩ := tried.noted may
    have derives := read _ _ rfl
    exact ⟨used, (Noted.of_moves (.look next)).trans noted, .inr derives, fun _ => derives.ne_nil⟩
  · rw [run] at eq
    cases eq
    rw [next] at may
    have look := Moves.look next
    obtain ⟨used, noted, -, -, still⟩ := tried.noted may
    obtain ⟨dropped, recovered, ended⟩ := Noted.recover lossy r error
    refine ⟨used ++ dropped, (Noted.of_moves look).trans (noted.trans recovered), .inl rfl, fun filled none => ?_⟩
    obtain ⟨unused, undropped⟩ := List.append_eq_nil_iff.mp none
    have same : r.unread = start.unread := still unused
    exact filled (look.unread_same.trans (same.symm.trans (ended undropped)))

end

/-! ### Requests -/

/-- A request during which the room ends inside a token. -/
def Operation.Loses (stack : Stack) (p : Parser) : Operation → Prop
  | .parse | .print => Tears (expression stack).run p.peek.2
  | .parseAll | .printAll => ¬Intact stack p
  | .bounded => Tears (expression stack).run p
  | .level which => Tears (which.rule stack).run p
  | .binary operand kinds => Tears (Parser.binary stack operand kinds) p
  | _ => False

/-- What a reply tells of the tokens consumed. -/
def Operation.Accounts : Operation → Reply → List Token → Prop
  | .take _, .token token, used => used = token.toList
  | .consume _ _, .token token, used => used = token.toList
  | .consume _ _, .failed _, used => used = []
  | .advance, .token token, used => used = token.toList
  | .advance, .failed _, used => used = []
  | .peek, _, used | .peekOrEnd, _, used | .atEnd, _, used | .record _ _, _, used => used = []
  | .parse, .tree tree, used => tree = .illegal ∨ Derives .equality used tree
  | .bounded, .tree tree, used => Derives .equality used tree
  | .level which, .tree tree, used => Derives which used tree
  | .binary operand kinds, .tree tree, used => Joined operand kinds used tree
  | _, _, _ => True

/-- Looking at the next token, and trying to take one in vain. -/
def Operation.Idle : Operation → Reply → Prop
  | .peek, _ | .peekOrEnd, _ | .atEnd, _ => True
  | .take _, reply => reply = .token none
  | .consume _ _, reply => ∃ failure, reply = .failed failure
  | _, _ => False

section

variable {stack : Stack}

/-- A request and the tokens it consumes: the last of them becomes the current one unless it is asked for as it is, the
    reply accounts for them, and a syntax error in reply names the next one. -/
structure Replies (stack : Stack) (lossy : Bool) (p : Parser) (operation : Operation) (used : List Token) : Prop where
  run : Run lossy p used (p.perform stack operation).2
  current : (p.perform stack operation).2.current = used.getLastD p.current ∨
    operation = .advance ∧ (p.perform stack operation).2.current = p.current
  accounts : operation.Accounts (p.perform stack operation).1 used
  refused (error : SyntaxError) (h : (p.perform stack operation).1 = .failed (.syntaxError error)) :
    error.token = (p.perform stack operation).2.upcoming

theorem moves_peekOrEnd (p : Parser) : Moves p [] p.peekOrEnd.2 := by
  unfold peekOrEnd
  split
  · next next => exact .look next
  · next next => exact .look next

theorem Noted.replies {operation : Operation} {reply : Reply} (noted : Noted lossy p used q)
    (eq : p.perform stack operation = (reply, q)) (accounts : operation.Accounts reply used)
    (named : ∀ error, reply = .failed (.syntaxError error) → error.token = q.upcoming) :
    Replies stack lossy p operation used := by
  constructor
  · rw [eq]
    exact noted.run
  · rw [eq]
    exact .inl noted.current
  · rwa [eq]
  · intro error h
    rw [eq] at h ⊢
    exact named error h

theorem ofWork_of_ok {α : Type} {work : Work α} {reply : α → Reply} {a : α} (h : work p = .ok a q) :
    Reply.ofWork work reply p = (reply a, q) := by rw [Reply.ofWork, h]

theorem ofWork_of_error {α : Type} {work : Work α} {reply : α → Reply} {failure : Failure}
    (h : work p = .error failure q) : Reply.ofWork work reply p = (.failed failure, q) := by rw [Reply.ofWork, h]

/-- The reply to a request for some work. -/
theorem Noted.replies_ofWork {α : Type} {operation : Operation} {work : Work α} {reply : α → Reply}
    (noted : Noted lossy p used (behind (work p))) (eq : p.perform stack operation = Reply.ofWork work reply p)
    (read : ∀ a q, work p = .ok a q → operation.Accounts (reply a) used ∧ ∀ failure, reply a ≠ .failed failure)
    (failed : ∀ failure q, work p = .error failure q → operation.Accounts (.failed failure) used)
    (named : ∀ error q, work p = .error (.syntaxError error) q → error.token = q.upcoming) :
    Replies stack lossy p operation used := by
  cases ran : work p with
  | ok a q =>
    rw [ran] at noted
    obtain ⟨accounts, other⟩ := read a q ran
    exact noted.replies (eq.trans (ofWork_of_ok ran)) accounts fun error h => absurd h (other _)
  | error failure q =>
    rw [ran] at noted
    refine noted.replies (eq.trans (ofWork_of_error ran)) (failed failure q ran) fun error h => ?_
    cases h
    exact named error q ran

theorem ofText_ne_failed (shown : Except Visitor.Failure String) (failure : Failure) :
    Reply.ofText shown ≠ .failed failure := by
  cases shown <;> exact Reply.noConfusion

/-- Whatever is asked of a parser, the reply accounts for the tokens that are consumed. -/
theorem perform_replies (stack : Stack) (readable : p.Readable) {operation : Operation}
    (may : lossy = true ∨ ¬operation.Loses stack p) : ∃ used, Replies stack lossy p operation used := by
  cases operation with
  | parse =>
    obtain ⟨tree, q, run⟩ := exists_parse stack readable
    obtain ⟨used, noted, read, -⟩ := parse_noted run readable may
    exact ⟨used, noted.replies (ofWork_of_ok run) read (by rintro _ ⟨⟩)⟩
  | print =>
    obtain ⟨tree, q, run⟩ := exists_parse stack readable
    obtain ⟨used, noted, -, -⟩ := parse_noted run readable may
    exact ⟨used, noted.replies (ofWork_of_ok run) trivial
      fun error h => absurd h (ofText_ne_failed _ _)⟩
  | parseAll =>
    obtain ⟨trees, q, run⟩ := exists_parseAll stack readable
    obtain ⟨⟨used, noted⟩, -⟩ := parseAll_noted run readable (may.imp_right Classical.not_not.mp)
    exact ⟨used, noted.replies (ofWork_of_ok run) trivial (by rintro _ ⟨⟩)⟩
  | printAll =>
    obtain ⟨trees, q, run⟩ := exists_parseAll stack readable
    obtain ⟨⟨used, noted⟩, -⟩ := parseAll_noted run readable (may.imp_right Classical.not_not.mp)
    exact ⟨used, noted.replies (ofWork_of_ok run) trivial
      fun error h => absurd h (ofText_ne_failed _ _)⟩
  | bounded =>
    obtain ⟨used, noted, read, named, -⟩ := (tried_expression stack readable).noted may
    exact ⟨used, noted.replies_ofWork rfl (fun tree q ran => ⟨read tree q ran, fun _ => Reply.noConfusion⟩)
      (fun _ _ _ => trivial) named⟩
  | level which =>
    obtain ⟨used, noted, read, named⟩ :=
      (attempt_rule stack which readable).noted (may.imp_right fun whole q ran => whole ⟨q, ran⟩)
    exact ⟨used, noted.replies_ofWork rfl (fun tree q ran => ⟨read tree q ran, fun _ => Reply.noConfusion⟩)
      (fun _ _ _ => trivial) named⟩
  | binary operand kinds =>
    obtain ⟨used, noted, read, named⟩ :=
      (attempt_binary stack operand kinds readable).noted (may.imp_right fun whole q ran => whole ⟨q, ran⟩)
    exact ⟨used, noted.replies_ofWork rfl (fun tree q ran => ⟨read tree q ran, fun _ => Reply.noConfusion⟩)
      (fun _ _ _ => trivial) named⟩
  | take kinds =>
    rcases take_cases kinds p with ⟨token, q, -, moves, -, eq⟩ | ⟨q, -, moves, eq⟩
    · have taken : p.perform stack (.take kinds) = (.token (some token), q) := by rw [perform, eq]; rfl
      exact ⟨[token], (Noted.of_moves moves).replies taken rfl (by rintro _ ⟨⟩)⟩
    · have missed : p.perform stack (.take kinds) = (.token none, q) := by rw [perform, eq]; rfl
      exact ⟨[], (Noted.of_moves moves).replies missed rfl (by rintro _ ⟨⟩)⟩
  | consume kind message =>
    rcases consume_cases kind (.other message) p with ⟨token, q, -, moves, eq⟩ | ⟨q, -, moves, eq⟩
    · exact ⟨[token], (Noted.of_moves moves).replies (ofWork_of_ok eq) rfl (by rintro _ ⟨⟩)⟩
    · exact ⟨[], (Noted.of_moves moves).replies (ofWork_of_error eq) rfl (by rintro _ ⟨⟩; rfl)⟩
  | peek => exact ⟨[], (Noted.of_moves (.look rfl)).replies rfl rfl (by rintro _ ⟨⟩)⟩
  | peekOrEnd => exact ⟨[], (Noted.of_moves (moves_peekOrEnd p)).replies rfl rfl (by rintro _ ⟨⟩)⟩
  | atEnd => exact ⟨[], (Noted.of_moves (.look rfl)).replies rfl rfl (by rintro _ ⟨⟩)⟩
  | synchronize =>
    obtain ⟨used, moves, -⟩ := p.synchronize_moves
    exact ⟨used, (Noted.of_moves moves).replies rfl trivial (by rintro _ ⟨⟩)⟩
  | record token message => exact ⟨[], (Noted.record p _).replies rfl rfl (by rintro _ ⟨⟩)⟩
  | advance =>
    -- The one request that passes over a token without making it the current one.
    have kept := current_peek p
    cases next : p.peek with
    | mk token q =>
      rw [next] at kept
      cases token with
      | some token =>
        have eq : p.perform stack .advance = (.token (some token), { q with lookahead := none }) := by
          rw [perform, Reply.ofWork, advance, next]
        refine ⟨[token], ?_, .inr ⟨rfl, ?_⟩, ?_, fun error h => ?_⟩
        · rw [eq]
          exact .of_step (.pass next)
        · rw [eq]
          exact kept
        · rw [eq]
          rfl
        · rw [eq] at h
          cases h
      | none =>
        have eq : p.perform stack .advance = (.failed .noTokenLeft, q) := by rw [perform, Reply.ofWork, advance, next]
        exact ⟨[], (Noted.of_moves (.look next)).replies eq rfl (by rintro _ ⟨⟩)⟩

/-! ### Any sequence of requests -/

/-- A request that loses nothing: the tokens consumed were the next, errors are added behind those there are, and idle
    requests change nothing that is still to be read. -/
structure Conserves (stack : Stack) (p : Parser) (operation : Operation) (used : List Token) : Prop where
  replies : Replies stack false p operation used
  unread : p.unread = used ++ (p.perform stack operation).2.unread
  errors : p.errors.toList <+: (p.perform stack operation).2.errors.toList
  idle : operation.Idle (p.perform stack operation).1 →
    used = [] ∧ (p.perform stack operation).2.unread = p.unread ∧ (p.perform stack operation).2.current = p.current

theorem Operation.Idle.used_eq_nil {operation : Operation} {reply : Reply} (idle : operation.Idle reply)
    (accounts : operation.Accounts reply used) : used = [] := by
  cases operation with
  | peek | peekOrEnd | atEnd => exact accounts
  | take kinds =>
    obtain rfl : reply = .token none := idle
    exact accounts
  | consume kind message =>
    obtain ⟨failure, rfl⟩ := idle
    exact accounts
  | parse | parseAll | bounded | level | binary | print | printAll | advance | synchronize | record => exact idle.elim

theorem Replies.conserves {operation : Operation} (h : Replies stack false p operation used) :
    Conserves stack p operation used where
  replies := h
  unread := h.run.unread_eq
  errors := h.run.errors_prefix
  idle := by
    intro idle
    obtain rfl := idle.used_eq_nil h.accounts
    refine ⟨rfl, h.run.unread_eq.symm, ?_⟩
    rcases h.current with same | ⟨-, same⟩
    · exact same
    · exact same

end

/-- The parser behind requests made one after another. -/
def performAll (requests : List (Stack × Operation)) (p : Parser) : Parser :=
  requests.foldl (fun p request => (p.perform request.1 request.2).2) p

/-- During none of the requests the room ends inside a token. -/
def Unbroken : List (Stack × Operation) → Parser → Prop
  | [], _ => True
  | (stack, operation) :: requests, p =>
    ¬operation.Loses stack p ∧ Unbroken requests (p.perform stack operation).2

/-- What requests consume one after another. -/
inductive Consumes : List (Stack × Operation) → Parser → List Token → Prop
  | nil (p : Parser) : Consumes [] p []
  | cons {stack : Stack} {operation : Operation} {requests : List (Stack × Operation)} {p : Parser}
    {used more : List Token} (first : Conserves stack p operation used)
    (rest : Consumes requests (p.perform stack operation).2 more) :
    Consumes ((stack, operation) :: requests) p (used ++ more)

theorem Step.readable (h : Step lossy p used q) (readable : p.Readable) : q.Readable := by
  cases h with
  | look h => exact (Moves.look h).readable readable
  | use h => exact (Moves.one h).readable readable
  | pass h => exact .of_fresh rfl
  | record => exact readable
  | stop h | lose _ h =>
    obtain ⟨fresh, t, -, rfl⟩ := of_pull_error h
    exact .of_fresh fresh

theorem Run.readable (h : Run lossy p used q) : p.Readable → q.Readable := by
  induction h with
  | refl => exact id
  | step first _ ih => exact fun readable => ih (first.readable readable)

theorem exists_replies (stack : Stack) (readable : p.Readable) (operation : Operation) :
    ∃ used, Replies stack true p operation used := perform_replies stack readable (.inl rfl)

theorem run_performAll (requests : List (Stack × Operation)) : ∀ {p : Parser}, p.Readable →
    ∃ used, Run true p used (performAll requests p) := by
  induction requests with
  | nil => exact fun {p} _ => ⟨[], .refl p⟩
  | cons request requests ih =>
    intro p readable
    obtain ⟨used, replies⟩ := exists_replies request.1 readable request.2
    obtain ⟨more, run⟩ := ih (replies.run.readable readable)
    exact ⟨used ++ more, replies.run.trans run⟩

theorem readable_performAll (requests : List (Stack × Operation)) (readable : p.Readable) :
    (performAll requests p).Readable := by
  obtain ⟨used, run⟩ := run_performAll requests readable
  exact run.readable readable

theorem exists_consumes : ∀ {requests : List (Stack × Operation)} {p : Parser}, p.Readable → Unbroken requests p →
    ∃ consumed, Consumes requests p consumed
  | [], p, _, _ => ⟨[], .nil p⟩
  | (stack, operation) :: requests, p, readable, unbroken => by
    obtain ⟨used, replies⟩ := perform_replies stack readable (.inr unbroken.1)
    obtain ⟨more, rest⟩ := exists_consumes (replies.run.readable readable) unbroken.2
    exact ⟨used ++ more, .cons replies.conserves rest⟩

theorem Consumes.run {requests : List (Stack × Operation)} (h : Consumes requests p consumed) :
    Run false p consumed (performAll requests p) := by
  induction h with
  | nil p => exact .refl p
  | cons first _ ih => exact first.replies.run.trans ih

/-- The tokens consumed, the one ahead and those that the scanner still has are all the tokens of the text; the scanner
    has reported what is wrong with the tokens taken from it. -/
structure Balance (text : String) (consumed : List Token) (p : Parser) : Prop where
  tokens : consumed ++ p.lookahead.toList ++ p.scanner.drain.1 = (Scanner.tokenize text).1
  reported : Reported consumed p

theorem Run.balance {text : String} (h : Run false (ofText text) consumed p) : Balance text consumed p where
  tokens := by
    rw [List.append_assoc, ← unread_ofText]
    exact h.unread_eq.symm
  reported := by
    have start : Reported [] (ofText text) := rfl
    exact h.reported start

/-- Nothing is reported that would not be reported of the text. -/
theorem Run.diagnostics_prefix {text : String} (h : Run false (ofText text) consumed p) :
    p.scanner.diagnostics.toList <+: (Scanner.tokenize text).2 := by
  obtain ⟨tokens, reported⟩ := h.balance
  rw [Scanner.tokenize_snd, ← tokens, List.flatMap_append, ← reported]
  exact List.prefix_append _ _

/-- Whatever is asked of a parser, if the room never ends inside a token its tokens stay in balance with those that the
    requests consume, and so they do with one request more. -/
theorem performAll_conserves {text : String} {requests : List (Stack × Operation)}
    (unbroken : Unbroken requests (ofText text)) :
    (∃ consumed, Consumes requests (ofText text) consumed ∧
        Balance text consumed (performAll requests (ofText text))) ∧
      (∀ stack operation, ¬operation.Loses stack (performAll requests (ofText text)) →
        ∃ used, Conserves stack (performAll requests (ofText text)) operation used) ∧
      (∀ p used q, Step false p used q → q.current = p.current ∨ used = [q.current]) ∧
      (Scanner.tokenize text).2 = (Scanner.tokenize text).1.flatMap faults := by
  have readable : (ofText text).Readable := .of_fresh rfl
  obtain ⟨consumed, consumes⟩ := exists_consumes readable unbroken
  refine ⟨⟨consumed, consumes, consumes.run.balance⟩, fun stack operation whole => ?_, fun _ _ _ step =>
    step.current_cases, Scanner.tokenize_snd text⟩
  obtain ⟨used, replies⟩ := perform_replies stack (readable_performAll requests readable) (.inr whole)
  exact ⟨used, replies.conserves⟩

/-- Some requests of all sorts. -/
def sampleRequests : List (Stack × Operation) :=
  [(.standard, .peek), (.standard, .take [.plus]), (.standard, .level .product), (.standard, .advance),
    (.standard, .bounded), (.standard, .consume .semicolon "no"), (.standard, .synchronize), (.standard, .parse)]

theorem performAll_conserves_requests : Unbroken sampleRequests (ofText "1 * 2 + - ) 3; \"4\" @") ∧
    ∃ consumed, Consumes sampleRequests (ofText "1 * 2 + - ) 3; \"4\" @") consumed := by
  have unbroken : Unbroken sampleRequests (ofText "1 * 2 + - ) 3; \"4\" @") := by
    simp only [sampleRequests, Unbroken, Operation.Loses, not_false_eq_true, true_and, and_true]
    decide +kernel
  obtain ⟨⟨consumed, consumes, -⟩, -⟩ := performAll_conserves unbroken
  exact ⟨unbroken, consumed, consumes⟩

end ExprLang.Parser
